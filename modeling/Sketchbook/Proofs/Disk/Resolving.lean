import Sketchbook.Proofs.Disk.Tracked
import Sketchbook.Proofs.Path.Pieces

/-!
# Resolving the path of an entry

Following the links in a text goes piece by piece, and whatever is left of the text, a step either
goes on from a place that is tracked, or it fails, or it meets a link that is under way already
(`Disk.course_cons`). So does a run over several pieces (`Disk.course_append`).

From this it follows what comes of a path with one more name: the path of this entry in what the
path resolves to, unless the entry is a link (`Disk.resolve_child_or_link`).
-/

namespace Sketchbook

/-- The path that is found, be it that it goes through a link to itself. -/
def Trace.path : Trace → Path
  | .settled p _ => p
  | .looped p => p

namespace Disk

/-- What resolves the target of a link in a folder. -/
abbrev LinkResolver :=
  KnownLinks → Path → String → Except ResolveFault Trace

variable {d : Disk} {onLink : LinkResolver} {known : KnownLinks} {done : Reached} {p q : Path}
  {n : String}

/-- The targets that are known are link-free. -/
def KnowsLinkFree (d : Disk) (known : KnownLinks) : Prop :=
  ∀ q p, (q, some p) ∈ known → d.LinkFree p

/-- A target that is resolved is link-free, and so are those that are known then. -/
def ResolvesLinkFree (d : Disk) (onLink : LinkResolver) : Prop :=
  ∀ known folder target p after, d.KnowsLinkFree known → d.LinkFree folder →
    onLink known folder target = .ok (.settled p after) → d.LinkFree p ∧ d.KnowsLinkFree after

namespace KnowsLinkFree

theorem nil : d.KnowsLinkFree [] := by
  intro q p hmem
  cases hmem

/-- A link that is under way has no target yet. -/
theorem cons_none (h : d.KnowsLinkFree known) (q : Path) : d.KnowsLinkFree
    ((q, none) :: known) := by
  intro r p hmem
  rcases List.mem_cons.mp hmem with heq | hmem
  · cases heq
  · exact h r p hmem

theorem cons_some (h : d.KnowsLinkFree known) (q : Path) (hp : d.LinkFree p) :
    d.KnowsLinkFree ((q, some p) :: known) := by
  intro r s hmem
  rcases List.mem_cons.mp hmem with heq | hmem
  · cases heq
    exact hp
  · exact h r s hmem

theorem of_lookup (h : d.KnowsLinkFree known) (hlookup : known.lookup q = some (some p)) :
    d.LinkFree p := by
  obtain ⟨before, after, heq, -⟩ := List.lookup_eq_some_iff.mp hlookup
  exact h q p (by simp [heq])

end KnowsLinkFree

/-! ### Single pieces -/

/-- What comes of following the links in some pieces of a text, as a function of what is left of the
text behind them. -/
inductive Course (d : Disk) (onLink : LinkResolver) (pieces : List String)
    (f : List String → Except ResolveFault Trace) : Prop
  /-- It goes on from a place that is tracked. -/
  | goesOn (known : KnownLinks) (done : Reached) (tracked : d.Tracked done)
    (knows : d.KnowsLinkFree known) (eq : ∀ rest, f rest = d.traceVia onLink known done rest)
  /-- It fails. -/
  | fails (e : ResolveFault) (eq : ∀ rest, f rest = .error e)
  /-- It meets a link that is under way already, and some of the pieces stay as they are. -/
  | loops (p : Path) (kept : List String) (mem : ∀ m ∈ kept, m ∈ pieces)
    (eq : ∀ rest, f rest = .ok (.looped (p.joinPieces (kept ++ rest))))

section Following

variable (hlink : d.ResolvesLinkFree onLink) (hknown : d.KnowsLinkFree known)
  (hdone : d.Tracked done)

include hlink hknown hdone

/-- Following a link goes on from its target, or it fails, or it meets a link that is under way. -/
theorem course_link (hn : Step.ofName n = .down n) (hname : ¬ (n = "" ∨ n = "."))
    (hnul : ¬ holdsNul n = true) {place : Place} {target : String}
    (hentry : d.entryIn? done n = some (place, .link target)) :
    d.Course onLink [n] fun rest => d.traceVia onLink known done (n :: rest) := by
  have hdots : n ≠ ".." := by
    rintro rfl
    cases hn
  cases hlookup : known.lookup (done.path.child n) with
  | some met =>
    cases met with
    | none =>
      refine .loops (done.path.child n) [] (by simp) fun rest => ?_
      simp only [traceVia, if_neg hname, if_neg hdots, if_neg hnul, hentry, hlookup,
        List.nil_append]
    | some p =>
      have hp : d.LinkFree p := hknown.of_lookup hlookup
      refine .goesOn known (d.reached p) (tracked_reached hp) hknown fun rest => ?_
      simp only [traceVia, if_neg hname, if_neg hdots, if_neg hnul, hentry, hlookup]
  | none =>
    cases hon : onLink ((done.path.child n, none) :: known) done.path target with
    | error e =>
      refine .fails e fun rest => ?_
      simp only [traceVia, if_neg hname, if_neg hdots, if_neg hnul, hentry, hlookup, hon]
    | ok t =>
      cases t with
      | settled p after =>
        obtain ⟨hp, hafter⟩ := hlink _ _ _ _ _ (hknown.cons_none _) hdone.linkFree hon
        refine .goesOn ((done.path.child n, some p) :: after) (d.reached p) (tracked_reached hp)
          (hafter.cons_some _ hp) fun rest => ?_
        simp only [traceVia, if_neg hname, if_neg hdots, if_neg hnul, hentry, hlookup, hon]
      | looped p =>
        refine .loops p [] (by simp) fun rest => ?_
        simp only [traceVia, if_neg hname, if_neg hdots, if_neg hnul, hentry, hlookup, hon,
          List.nil_append]

variable (hcurrent : d.lost = 0)

include hcurrent

/-- All that a piece of a text can do. -/
theorem course_cons (n : String) :
    d.Course onLink [n] fun rest => d.traceVia onLink known done (n :: rest) := by
  by_cases hname : n = "" ∨ n = "."
  · refine .goesOn known done hdone hknown fun rest => ?_
    simp only [traceVia, if_pos hname]
  by_cases hdots : n = ".."
  · refine .goesOn known (d.goUp done) (hdone.goUp hcurrent) hknown fun rest => ?_
    simp only [traceVia, if_neg hname, if_pos hdots]
  by_cases hnul : holdsNul n = true
  · refine .fails .nul fun rest => ?_
    simp only [traceVia, if_neg hname, if_neg hdots, if_pos hnul]
  have hn : Step.ofName n = .down n := by simp [Step.ofName, hdots, (not_or.mp hname).2]
  have hfree : holdsNul n = false := by simpa using hnul
  cases hentry : d.entryIn? done n with
  | none =>
    refine .goesOn known _ (hdone.vacant hcurrent hn hfree hentry) hknown fun rest => ?_
    simp only [traceVia, if_neg hname, if_neg hdots, if_neg hnul, hentry]
  | some found =>
    obtain ⟨place, node⟩ := found
    cases node with
    | link target => exact course_link hlink hknown hdone hn hname hnul hentry
    | file bytes access =>
      refine .goesOn known _ (hdone.down hn hfree hentry (by simp)) hknown fun rest => ?_
      simp only [traceVia, if_neg hname, if_neg hdots, if_neg hnul, hentry]
    | folder access =>
      refine .goesOn known _ (hdone.down hn hfree hentry (by simp)) hknown fun rest => ?_
      simp only [traceVia, if_neg hname, if_neg hdots, if_neg hnul, hentry]

/-- All that several pieces of a text can do. -/
theorem course_append (pieces : List String) :
    d.Course onLink pieces fun rest => d.traceVia onLink known done (pieces ++ rest) := by
  induction pieces generalizing known done with
  | nil => exact .goesOn known done hdone hknown fun rest => rfl
  | cons n pieces ih =>
    cases course_cons hlink hknown hdone hcurrent n with
    | goesOn known' done' hdone' hknown' hfirst =>
      cases ih hknown' hdone' with
      | goesOn known'' done'' hdone'' hknown'' hrest =>
        exact .goesOn known'' done'' hdone'' hknown'' fun rest =>
          (hfirst (pieces ++ rest)).trans (hrest rest)
      | fails e hrest => exact .fails e fun rest => (hfirst (pieces ++ rest)).trans (hrest rest)
      | loops p kept hkept hrest =>
        exact .loops p kept (fun m hm => List.mem_cons_of_mem n (hkept m hm)) fun rest =>
          (hfirst (pieces ++ rest)).trans (hrest rest)
    | fails e hfirst => exact .fails e fun rest => hfirst (pieces ++ rest)
    | loops p kept hkept hfirst =>
      refine .loops p (kept ++ pieces) ?_ fun rest => ?_
      · intro m hm
        rcases List.mem_append.mp hm with hm | hm
        · exact List.mem_cons.mpr (.inl (List.mem_singleton.mp (hkept m hm)))
        · exact List.mem_cons_of_mem n hm
      · rw [List.append_assoc]
        exact hfirst (pieces ++ rest)

/-- What a text is resolved to is link-free. -/
theorem linkFree_of_traceVia {pieces : List String} {after : KnownLinks}
    (h : d.traceVia onLink known done pieces = .ok (.settled p after)) :
    d.LinkFree p ∧ d.KnowsLinkFree after := by
  have hcourse := course_append hlink hknown hdone hcurrent pieces
  rw [← List.append_nil pieces] at h
  cases hcourse with
  | goesOn known' done' hdone' hknown' heq =>
    have hend : d.traceVia onLink known' done' [] = .ok (.settled p after) :=
      (heq []).symm.trans h
    simp only [traceVia, Except.ok.injEq, Trace.settled.injEq] at hend
    obtain ⟨rfl, rfl⟩ := hend
    exact ⟨hdone'.linkFree, hknown'⟩
  | fails e heq => cases (heq []).symm.trans h
  | loops q kept hkept heq => cases (heq []).symm.trans h

end Following

/-! ### Whole texts -/

/-- Whatever number of links may be under way, following them resolves targets to link-free paths.
-/
theorem exists_trace_eq (hcurrent : d.lost = 0) (depth : Nat) :
    ∃ onLink, d.ResolvesLinkFree onLink ∧ ∀ known p pieces,
      d.trace depth known p pieces = d.traceVia onLink known (d.reached p) pieces := by
  induction depth with
  | zero =>
    refine ⟨_, ?_, fun _ _ _ => rfl⟩
    intro known folder target p after _ _ h
    cases h
  | succ depth ih =>
    obtain ⟨onLink, hlink, heq⟩ := ih
    refine ⟨_, ?_, fun _ _ _ => rfl⟩
    intro known folder target p after hknown hfolder h
    simp only [heq] at h
    refine linkFree_of_traceVia hlink hknown (tracked_reached ?_) hcurrent h
    split
    · exact .base .root
    · exact hfolder

theorem absolute?_eq (hcurrent : d.lost = 0) (p : Path) :
    d.absolute? p = some (p.absolute d.cwd) := by
  simp [absolute?, hcurrent]

/-- The path that has been resolved is the one that was found, made absolute. -/
theorem exists_of_resolve (hcurrent : d.lost = 0) (h : d.resolve p = .ok q) :
    ∃ t, d.trace d.traceDepth [] p.base p.parts = .ok t ∧
      q = (t.path.absolute d.cwd).cancelDots := by
  unfold resolve at h
  cases htrace : d.trace d.traceDepth [] p.base p.parts with
  | error e =>
    rw [htrace] at h
    cases h
  | ok t =>
    refine ⟨t, rfl, ?_⟩
    rw [htrace] at h
    cases t <;>
      (simp only [absolute?_eq hcurrent] at h
       split at h
       · cases h
       · cases h
       · exact (Except.ok.inj h).symm)

/-- A path that is found and leads to something is what is resolved. -/
theorem resolve_of_trace (hcurrent : d.lost = 0) {t : Trace} {node : Node}
    (htrace : d.trace d.traceDepth [] p.base p.parts = .ok t)
    (hstat : d.stat (t.path.absolute d.cwd).cancelDots = .ok node) :
    d.resolve p = .ok (t.path.absolute d.cwd).cancelDots := by
  unfold resolve
  rw [htrace]
  cases t <;>
    (rw [Trace.path] at hstat
     simp only [absolute?_eq hcurrent, hstat]
     rfl)

/-- A last piece that is the name of no link is the end of the path. -/
theorem traceVia_entry (hn : IsPathPart n) (hdots : n ≠ "..") (hnul : holdsNul n = false)
    (hentry : ∀ place target, d.entryIn? done n ≠ some (place, .link target)) :
    d.traceVia onLink known done [n] = .ok (.settled (done.path.child n) known) := by
  have hname : ¬ (n = "" ∨ n = ".") := not_or.mpr ⟨hn.ne_empty, hn.ne_dot⟩
  have hfree : ¬ holdsNul n = true := by simpa using hnul
  simp only [traceVia, if_neg hname, if_neg hdots, if_neg hfree]
  split
  · next place target hlink => exact absurd hlink (hentry place target)
  · rfl
  · rfl

/-- What a path with one more name is resolved to is the entry of this name in the folder that the
path is resolved to, unless this entry is a link. -/
theorem resolve_child_or_link (hcurrent : d.lost = 0) (hcwd : ".." ∉ d.cwd)
    (hparts : ∀ m ∈ p.parts, IsPathPart m) (hn : IsPathPart n) (hdots : n ≠ "..")
    (hresolve : d.resolve p = .ok q) {node : Node} (hstat : d.stat (q.child n) = .ok node) :
    d.resolve (p.child n) = .ok (q.child n) ∨
      ∃ target, d.node? (q.parts ++ [n]) = some (.link target) := by
  have hdown : Step.ofName n = .down n := by simp [Step.ofName, hn.ne_dot, hdots]
  have hnul : holdsNul n = false := (Path.hasNul_child_eq_false_iff.mp (hasNul_of_stat hstat)).2
  obtain ⟨t, htrace, rfl⟩ := exists_of_resolve hcurrent hresolve
  obtain ⟨onLink, hlink, heq⟩ := exists_trace_eq hcurrent d.traceDepth
  rw [heq, ← List.append_nil p.parts] at htrace
  have hchild : ((t.path.child n).absolute d.cwd).cancelDots =
      (t.path.absolute d.cwd).cancelDots.child n := by
    rw [Path.absolute_child, Path.cancelDots_child _ hdots]
  have hfound : ∀ t', d.traceVia onLink [] (d.reached p.base) (p.parts ++ [n]) = .ok t' →
      t'.path = t.path.child n →
        d.resolve (p.child n) = .ok ((t.path.absolute d.cwd).cancelDots.child n) := by
    intro t' ht' hpath
    have htrace' : d.trace d.traceDepth [] (p.child n).base (p.child n).parts = .ok t' := by
      rw [heq]
      exact ht'
    rw [← hchild, ← hpath] at hstat ⊢
    exact resolve_of_trace hcurrent htrace' hstat
  have hbase : d.LinkFree p.base := .base _
  cases course_append hlink .nil (tracked_reached hbase) hcurrent p.parts with
  | goesOn known done hdone hknown hrun =>
    have ht : t.path = done.path := by
      rw [hrun []] at htrace
      cases htrace
      rfl
    by_cases hentry : ∃ place target, d.entryIn? done n = some (place, .link target)
    · obtain ⟨place, target, hentry⟩ := hentry
      have hfind := (hdone.entryIn?_eq_some_iff hdown hnul).mp hentry
      obtain ⟨folder, access, hfolder, -, hnode⟩ := find_child_entry_cases hdown hfind
      have hplace := hdone.linkFree.place_eq hcurrent hcwd hfolder
      rw [ht, ← hplace]
      exact .inr ⟨target, hnode⟩
    · have hno : ∀ place target, d.entryIn? done n ≠ some (place, .link target) :=
        fun place target h => hentry ⟨place, target, h⟩
      have hend : d.traceVia onLink known done [n] = .ok (.settled (done.path.child n) known) :=
        traceVia_entry hn hdots hnul hno
      refine .inl (hfound _ ((hrun [n]).trans hend) ?_)
      rw [ht]
      rfl
  | fails e hrun => cases (hrun []).symm.trans htrace
  | loops p' kept hkept hrun =>
    have ht : t = .looped (p'.joinPieces kept) := by
      rw [hrun [], List.append_nil] at htrace
      exact (Except.ok.inj htrace).symm
    refine .inl (hfound _ (hrun [n]) ?_)
    rw [ht]
    exact Path.joinPieces_concat p' (fun m hm => hparts m (hkept m hm)) hn

end Disk

end Sketchbook
