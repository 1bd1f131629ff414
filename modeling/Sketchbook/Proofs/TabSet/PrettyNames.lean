import Sketchbook.Proofs.FileName.Cut
import Sketchbook.Proofs.FileName.LastDot
import Sketchbook.Proofs.TabSet.Load

/-!
# The names of loaded tabs

There are two ways to drop the extension of a file name: `stem` cuts it at the last dot, and
`splitExtension?` cuts off as many characters as an extension has that the lowercase of the name
ends in. Where the second way leaves anything, both leave the same
(`prettyName_eq_of_splitExtension?`). A load with the usual policy makes no other tabs, so that the
name shown for a tab is one that the policy accepts (`prettyName_loadIn`).
-/

namespace Sketchbook

variable {μ : Type}

/-- An extension of tabs has no dot, in whatever case it is written. -/
theorem not_mem_dot_of_equalButCase {written e : String} (he : e ∈ sourceExtensions)
    (h : EqualButCase written e) : '.' ∉ written.toList := by
  intro hdot
  have hmem : Char.toLower '.' ∈ written.toList.map Char.toLower := List.mem_map_of_mem hdot
  rw [h] at hmem
  exact (extensionMark_eq e he).2 hmem

/-- Where something is left of a file name when an extension of tabs is cut off, it is what comes
before the last dot. -/
theorem prettyName_eq_of_splitExtension? {t : Tab μ} {base : String}
    (h : splitExtension? t.filename sourceExtensions = some base) (hbase : base ≠ "") :
    t.prettyName = base ∧
      ∃ extension, '.' ∉ extension.toList ∧ t.filename = t.prettyName ++ "." ++ extension := by
  obtain ⟨written, hfilename, e, he, hwritten⟩ :=
    (splitExtension?_eq_some_iff fun _ => Iff.rfl).mp h
  have hdot := not_mem_dot_of_equalButCase he hwritten
  have hpretty : t.prettyName = base := by
    rw [Tab.prettyName, hfilename, stem_append hbase hdot]
  refine ⟨hpretty, written, hdot, ?_⟩
  rw [hpretty]
  exact hfilename

/-- There are no characters in an empty name, so it is not sanitary. -/
theorem ne_empty_of_isSanitary {base : String} (h : isSanitary base = true) : base ≠ "" := by
  rintro rfl
  exact absurd h (by decide)

namespace TabSet

/-- Whatever comes of a load, the tabs that it leaves are for entries that are admitted. -/
theorem admits_of_mem_loadIn {s : TabSet} (hs : s.IsFormed) (o : ListingOrder) (w : Workspace μ)
    {id : TabId} (hid : id ∈ (s.loadIn o w).2.1.members) :
    s.admits w.disk ((s.loadIn o w).2.2.tab id).filename = true := by
  have houtcome := loadOutcome hs o w
  generalize s.loadIn o w = r at hid houtcome ⊢
  have hfilename : ∀ {files s' w'}, LoadedAs s w files s' w' → id ∈ s'.members →
      (w'.tab id).filename ∈ files := by
    intro files s' w' hloaded hmem
    rw [← hloaded.filenames_eq]
    exact List.mem_map_of_mem hmem
  cases houtcome with
  | unlistable hlist => cases hid
  | complete hlist hstops hadmits hfiles hloaded =>
    exact ((hfiles.mem_iff _).mp (hfilename hloaded hid)).2
  | noCode hlist hstops hadmits hloaded => cases hfilename hloaded hid
  | stopped hlist hsplit hbefore hn hloaded =>
    exact (List.mem_filter.mp (hfilename hloaded hid)).2

/-- The name shown for a tab is its file name without the extension, if the extension is one of
tabs and anything comes before it. With the usual policy this is so for every tab that a load
leaves, whatever comes of it: the name shown is sanitary, and the file name is this name, a dot and
an extension without one. -/
theorem prettyName_loadIn :
    (∀ (t : Tab μ) (base : String), splitExtension? t.filename sourceExtensions = some base →
      base ≠ "" → t.prettyName = base ∧
        ∃ extension, '.' ∉ extension.toList ∧ t.filename = t.prettyName ++ "." ++ extension) ∧
    ∀ (s : TabSet) (o : ListingOrder) (w : Workspace μ), s.IsFormed →
      s.accepts = acceptsSanitary → ∀ id ∈ (s.loadIn o w).2.1.members,
        let t := (s.loadIn o w).2.2.tab id
        splitExtension? t.filename sourceExtensions = some t.prettyName ∧ t.prettyName ≠ "" ∧
          isSanitary t.prettyName = true ∧
          ∃ extension, '.' ∉ extension.toList ∧
            t.filename = t.prettyName ++ "." ++ extension := by
  refine ⟨fun t base h hbase => prettyName_eq_of_splitExtension? h hbase, ?_⟩
  intro s o w hs hpolicy id hid t
  have hadmits := admits_of_mem_loadIn hs o w hid
  obtain ⟨-, -, haccepts⟩ := admits_iff.mp hadmits
  rw [hpolicy] at haccepts
  obtain ⟨base, hsplit, hsanitary⟩ := (Option.any_eq_true _ _).mp haccepts
  have hbase := ne_empty_of_isSanitary hsanitary
  obtain ⟨rfl, hfilename⟩ := prettyName_eq_of_splitExtension? hsplit hbase
  exact ⟨hsplit, hbase, hsanitary, hfilename⟩

/-- A file name with three dots, in capitals, and the tabs of a folder with a link that leads
nowhere. -/
theorem prettyName_loadIn_blink :
    (⟨⟨.root, ["B", "İ.Σ..CPP"]⟩, "", false, none, .memory⟩ : Tab Unit).prettyName = "İ.Σ." ∧
      blink.IsFormed ∧ blink.accepts = acceptsSanitary ∧
      ∃ id ∈ (blink.loadIn .asKept (blinkOn "none")).2.1.members,
        isSanitary ((blink.loadIn .asKept (blinkOn "none")).2.2.tab id).prettyName = true := by
  obtain ⟨hpretty, hloaded⟩ := prettyName_loadIn (μ := Unit)
  have hid : 1 ∈ (blink.loadIn .asKept (blinkOn "none")).2.1.members := by decide +kernel
  refine ⟨(hpretty _ _ (by decide +kernel) (by decide)).1, isFormed_blink, rfl, 1, hid, ?_⟩
  exact (hloaded blink .asKept (blinkOn "none") isFormed_blink rfl 1 hid).2.2.1

end TabSet

end Sketchbook
