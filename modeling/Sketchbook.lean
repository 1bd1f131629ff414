import Sketchbook.Text.Basic
import Sketchbook.Text.Blank
import Sketchbook.Text.Digit
import Sketchbook.Text.Glob.Basic
import Sketchbook.Text.Glob.Expression
import Sketchbook.Text.Glob.Reading
import Sketchbook.Text.Glob.Table
import Sketchbook.Text.Lines
import Sketchbook.Text.Lowercase
import Sketchbook.Text.Quoted
import Sketchbook.Text.Utf8
import Sketchbook.FileName.Kind
import Sketchbook.FileName.Extension
import Sketchbook.FileName.Sanitary
import Sketchbook.FileName.SourceFilter
import Sketchbook.Path
import Sketchbook.NameTree
import Sketchbook.Disk.Basic
import Sketchbook.Disk.Host
import Sketchbook.Disk.Walk
import Sketchbook.Disk.Query
import Sketchbook.Disk.Change
import Sketchbook.Disk.Resolve
import Sketchbook.Disk.Arrange
import Sketchbook.Order.StableSort
import Sketchbook.Failure
import Sketchbook.Sketch.Primary
import Sketchbook.Tab.Basic
import Sketchbook.Tab.Steps
import Sketchbook.Tab.Disk
import Sketchbook.Workspace
import Sketchbook.TabSet.Basic
import Sketchbook.TabSet.Disk
import Sketchbook.TabSet.Report
import Sketchbook.TabSet.Action
import Sketchbook.Session.Operation
import Sketchbook.Command.Arguments
import Sketchbook.Command.Help
import Sketchbook.Command.Run
import Sketchbook.Disk.Image
import Sketchbook.Main
import Sketchbook.Proofs.Disk.Listing
import Sketchbook.Proofs.Disk.Walk
import Sketchbook.Proofs.Disk.Leads
import Sketchbook.Proofs.Disk.Writing
import Sketchbook.Proofs.Disk.Entries
import Sketchbook.Proofs.Disk.Removing
import Sketchbook.Proofs.Disk.Moving
import Sketchbook.Proofs.Disk.Barred
import Sketchbook.Proofs.Path.EntryName
import Sketchbook.Proofs.Disk.Ways
import Sketchbook.Proofs.Text.Caseless
import Sketchbook.Proofs.Text.Lowered
import Sketchbook.Proofs.Text.Glob
import Sketchbook.Proofs.Text.Lowercase
import Sketchbook.Proofs.Text.Utf8
import Sketchbook.Proofs.Text.Damage
import Sketchbook.Proofs.FileName.Extension
import Sketchbook.Proofs.FileName.SourceFilter
import Sketchbook.Proofs.FileName.Cut
import Sketchbook.Proofs.FileName.LastDot
import Sketchbook.Proofs.FileName.Normalized
import Sketchbook.Proofs.Workspace.Tabs
import Sketchbook.Proofs.Workspace.Operations
import Sketchbook.Proofs.Workspace.Lossless
import Sketchbook.Proofs.TabSet.Order
import Sketchbook.Proofs.TabSet.Scan
import Sketchbook.Proofs.TabSet.Load
import Sketchbook.Proofs.TabSet.Messages
import Sketchbook.Proofs.TabSet.Fresh
import Sketchbook.Proofs.TabSet.LoadFailure
import Sketchbook.Proofs.TabSet.Save
import Sketchbook.Proofs.TabSet.SavedPrefix
import Sketchbook.Proofs.TabSet.Renaming
import Sketchbook.Proofs.TabSet.RenamedEntry
import Sketchbook.Proofs.TabSet.UniqueNames
import Sketchbook.Proofs.Session.Event
import Sketchbook.Proofs.Session.History
import Sketchbook.Proofs.TabSet.RenamedOrder
import Sketchbook.Proofs.TabSet.Sorting
import Sketchbook.Proofs.Tab.Steps
import Sketchbook.Proofs.Tab.Sweeping
import Sketchbook.Proofs.Tab.Turn
import Sketchbook.Proofs.Tab.Ownership
import Sketchbook.Proofs.TabSet.Deleting
import Sketchbook.Proofs.Sketch.Primary
import Sketchbook.Proofs.Command.Steps
import Sketchbook.Proofs.TabSet.MainFile
import Sketchbook.Proofs.Command.MainFile
import Sketchbook.Proofs.Command.Idle
import Sketchbook.Proofs.Command.Loaded
import Sketchbook.Proofs.Session.OnFile
import Sketchbook.Proofs.Command.Ending
import Sketchbook.Proofs.Disk.LinkFree
import Sketchbook.Proofs.Disk.Tracked
import Sketchbook.Proofs.Path.Pieces
import Sketchbook.Proofs.Tab.Opened
import Sketchbook.Proofs.Tab.Deletion
import Sketchbook.Proofs.Disk.Resolving
import Sketchbook.Proofs.Command.FolderOrFile
import Sketchbook.Proofs.Sketch.Entries
import Sketchbook.Proofs.Disk.CurrentFolder
import Sketchbook.Proofs.Sketch.Spelling
import Sketchbook.Proofs.TabSet.Leading
import Sketchbook.Proofs.Session.Positions
import Sketchbook.Proofs.TabSet.PrettyNames
import Sketchbook.Proofs.Sketch.Accepted
import Sketchbook.Proofs.Disk.MovingBack
import Sketchbook.Proofs.TabSet.RenamedBack
