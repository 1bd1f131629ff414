import Mathlib.Data.List.Nodup
import Sketchbook.Proofs.TabSet.Load
import Sketchbook.Session.Operation

/-!
# The positions of a tab in a set

A load gives every tab of a set one position. Of all that can be done in a session only two
operations give a tab a second one (`Session.Doubles`): adding a tab that is in the set, and
replacing another tab by one that is in the set. So each tab keeps to one position exactly as long
as neither of them is used in this way, and this is what it takes for a tab that is removed to be
gone. Main statement: `Session.holdsOnce_iff_not_doubles`.
-/

namespace Sketchbook

variable {μ : Type}

namespace TabSet

/-! ### Lists of tabs -/

/-- What is in a list after a replacement is the new element or was there before. -/
theorem mem_of_mem_replaceFirst {α : Type} {test : α → Bool} {new a : α} {as : List α}
    (h : a ∈ replaceFirst test new as) : a = new ∨ a ∈ as := by
  induction as with
  | nil => cases h
  | cons b as ih =>
    rw [replaceFirst] at h
    split at h
    · exact (List.mem_cons.mp h).imp_right (List.mem_cons_of_mem b)
    · rcases List.mem_cons.mp h with rfl | h
      · exact .inr (List.mem_cons_self ..)
      · exact (ih h).imp_right (List.mem_cons_of_mem b)

/-- Different elements stay different when one that passes the test replaces the first that does,
exactly if it is new to the list or takes its own place. -/
theorem nodup_replaceFirst_iff {α : Type} {test : α → Bool} {new : α} {as : List α}
    (hnodup : as.Nodup) (hnew : test new = true) :
    (replaceFirst test new as).Nodup ↔ new ∉ as ∨ as.find? test = some new := by
  induction as with
  | nil => simp [replaceFirst]
  | cons a as ih =>
    obtain ⟨ha, has⟩ := List.nodup_cons.mp hnodup
    rw [replaceFirst]
    cases htest : test a with
    | true =>
      rw [if_pos rfl, List.nodup_cons, List.find?_cons_of_pos htest, Option.some.injEq]
      by_cases heq : a = new
      · subst heq
        exact iff_of_true ⟨ha, has⟩ (.inr rfl)
      · simp [has, heq, Ne.symm heq]
    | false =>
      have hne : a ≠ new := by
        rintro rfl
        rw [hnew] at htest
        cases htest
      have hkept : a ∉ replaceFirst test new as :=
        fun h => (mem_of_mem_replaceFirst h).elim hne ha
      rw [if_neg Bool.false_ne_true, List.nodup_cons, List.find?_cons_of_neg (by simp [htest]),
        and_iff_right hkept, ih has]
      simp [Ne.symm hne]

/-- Elements are different exactly if each of them is gone once it has been removed. -/
theorem nodup_iff_not_mem_erase {α : Type} [BEq α] [LawfulBEq α] {as : List α} :
    as.Nodup ↔ ∀ a, a ∉ as.erase a := by
  refine ⟨fun h _ => h.not_mem_erase, fun h => List.nodup_iff_count_le_one.mpr fun a => ?_⟩
  have hnone : List.count a (as.erase a) = 0 := List.count_eq_zero.mpr (h a)
  rw [List.count_erase_self] at hnone
  omega

/-! ### Operations on a set -/

section Members

variable {s : TabSet} {w : Workspace μ} {id : TabId}

/-- A set that has been made for a main file has no tabs yet. -/
theorem members_of_ofPrimary {d : Disk} {p : Path} {sink : Sink} {accepts : Option String → Bool}
    (h : ofPrimary d p sink accepts = .ok s) : s.members = [] := by
  unfold ofPrimary at h
  split at h
  · cases h
  · split at h
    · cases h
    · cases h
      rfl

/-- Every tab that a load leaves has one position, whatever comes of the load. -/
theorem nodup_loadIn (s : TabSet) (o : ListingOrder) (w : Workspace μ) :
    (s.loadIn o w).2.1.members.Nodup := by
  unfold loadIn
  split
  · exact .nil
  · exact .nil
  · unfold loadListed
    simp only
    split
    · exact List.nodup_range'
    · split
      · exact List.nodup_range'
      · rw [(sort_perm _ _).nodup_iff, (pinPrimary_perm _ _).nodup_iff]
        exact List.nodup_range'

/-- A tab that is added has one position exactly if it was not in the set. -/
theorem nodup_add_iff (h : s.members.Nodup) : (s.add id).members.Nodup ↔ id ∉ s.members := by
  rw [add, ← List.concat_eq_append, List.nodup_concat]
  exact and_iff_left h

/-- A tab that is moved to the front has no other position. -/
theorem nodup_moveToFront (h : s.members.Nodup) (id : TabId) :
    (s.moveToFront id).members.Nodup :=
  List.nodup_cons.mpr ⟨h.not_mem_erase, h.erase id⟩

/-- A tab that replaces the first one with its name has one position exactly if it was not in the
set, or is this first one. -/
theorem nodup_replace_iff (h : s.members.Nodup) :
    (s.replace w id).members.Nodup ↔
      id ∉ s.members ∨ s.find? w (w.tab id).filename = some id :=
  nodup_replaceFirst_iff h (by simp)

/-- A tab that is removed leaves its first position. -/
theorem members_remove (s : TabSet) (w : Workspace μ) (id : TabId) :
    (s.remove w id).1.members = s.members.erase id := by
  unfold remove
  split
  · rfl
  · next hnot =>
    exact (List.erase_of_not_mem (by simpa using hnot)).symm

/-- A tab has no index exactly if it is not in the set. -/
theorem indexOf?_eq_none_iff : s.indexOf? id = none ↔ id ∉ s.members := by
  rw [indexOf?, List.findIdx?_eq_none_iff]
  exact ⟨fun h hid => by simpa using h id hid, fun h m hm => by
    simpa using fun heq : m = id => h (heq ▸ hm)⟩

/-- Every tab of a set has one position exactly if none is left once it has been removed. -/
theorem nodup_iff_indexOf?_remove (s : TabSet) (w : Workspace μ) :
    s.members.Nodup ↔ ∀ id, (s.remove w id).1.indexOf? id = none := by
  simp only [indexOf?_eq_none_iff, members_remove]
  exact nodup_iff_not_mem_erase

end Members

end TabSet

namespace Session

variable {s : Session μ} {k : SetId}

/-- In the set with this number every tab has one position. -/
def HoldsOnce (s : Session μ) (k : SetId) : Prop :=
  ∀ t, s.set? k = some t → t.members.Nodup

/-- The operation adds a tab to the set that is in it, or replaces another tab by one that is in
it. -/
def Doubles (s : Session μ) (k : SetId) : Operation μ → Prop
  | .add set id => set = k ∧ ∃ t, s.set? k = some t ∧ id ∈ t.members
  | .replace set id => set = k ∧ ∃ t, s.set? k = some t ∧ id ∈ t.members ∧
      t.find? s.workspace (s.workspace.tab id).filename ≠ some id
  | _ => False

/-- What an operation on a set leaves of the sets of a session. -/
theorem set?_updateSet (s : Session μ) (id k : SetId)
    (f : TabSet → Except Failure Reply × TabSet × Workspace μ) :
    (s.updateSet id f).2.set? k =
      if id = k then (s.set? k).map fun t => (f t).2.1 else s.set? k := by
  unfold updateSet
  by_cases hk : id = k
  · subst hk
    cases hid : s.set? id with
    | none => simpa using hid
    | some t =>
      have hlt : id < s.sets.length := (List.getElem?_eq_some_iff.mp hid).1
      rw [if_pos rfl]
      exact List.getElem?_set_self hlt
  · rw [if_neg hk]
    split
    · rfl
    · exact List.getElem?_set_ne hk

/-- If an operation keeps tabs apart in all sets but the bad ones, then after it every tab has one
position exactly if it was not performed on a bad set. -/
theorem holdsOnce_updateSet_iff (h : s.HoldsOnce k) {id : SetId} {bad : TabSet → Prop}
    {f : TabSet → Except Failure Reply × TabSet × Workspace μ}
    (hf : ∀ t : TabSet, t.members.Nodup → ((f t).2.1.members.Nodup ↔ ¬ bad t)) :
    (s.updateSet id f).2.HoldsOnce k ↔ ¬ (id = k ∧ ∃ t, s.set? k = some t ∧ bad t) := by
  unfold HoldsOnce
  rw [set?_updateSet]
  by_cases hid : id = k
  · cases hset : s.set? k with
    | none => simp
    | some t => simpa [hid] using hf t (h t hset)
  · rw [if_neg hid]
    exact iff_of_true h fun hdoubled => hid hdoubled.1

/-- Every tab keeps its one position under an operation that keeps the tabs of any set apart. -/
theorem HoldsOnce.updateSet (h : s.HoldsOnce k) {id : SetId}
    {f : TabSet → Except Failure Reply × TabSet × Workspace μ}
    (hf : ∀ t : TabSet, t.members.Nodup → (f t).2.1.members.Nodup) :
    (s.updateSet id f).2.HoldsOnce k := by
  have hnever : ∀ t : TabSet, t.members.Nodup → ((f t).2.1.members.Nodup ↔ ¬ False) :=
    fun t ht => iff_of_true (hf t ht) not_false
  refine (holdsOnce_updateSet_iff h hnever).mpr ?_
  rintro ⟨-, -, -, hbad⟩
  exact hbad

/-- A set that is made holds no tabs. -/
theorem holdsOnce_makeSet (h : s.HoldsOnce k) (host : Host) (p : Path) (sink : Sink)
    (accepts : Option String → Bool) :
    (s.performUnder host (.makeSet p sink accepts)).2.HoldsOnce k := by
  rw [performUnder]
  cases hmade : TabSet.ofPrimary s.workspace.disk p sink accepts with
  | error f => exact h
  | ok t =>
    intro t' ht'
    have hsets : (s.sets ++ [t])[k]? = some t' := ht'
    rw [List.getElem?_append] at hsets
    split at hsets
    · exact h t' hsets
    · obtain rfl := List.mem_singleton.mp (List.mem_of_getElem? hsets)
      rw [TabSet.members_of_ofPrimary hmade]
      exact .nil

/-- After one operation every tab of a set has one position exactly if the operation gives none a
second one. -/
theorem holdsOnce_performUnder_iff (h : s.HoldsOnce k) (host : Host) (op : Operation μ) :
    (s.performUnder host op).2.HoldsOnce k ↔ ¬ s.Doubles k op := by
  cases op with
  | add id tab => exact holdsOnce_updateSet_iff h fun t ht => TabSet.nodup_add_iff ht
  | replace id tab =>
    refine holdsOnce_updateSet_iff h fun t ht => (TabSet.nodup_replace_iff ht).trans ?_
    rw [not_and, ne_eq, not_not, imp_iff_not_or]
  | load id => exact iff_of_true (h.updateSet fun t _ => t.nodup_loadIn host.order _) not_false
  | saveAll id => exact iff_of_true (h.updateSet fun _ ht => ht) not_false
  | sort id =>
    exact iff_of_true (h.updateSet fun t ht => (t.sort_perm s.workspace).nodup_iff.mpr ht) not_false
  | clear id => exact iff_of_true (h.updateSet fun _ _ => .nil) not_false
  | moveToFront id tab =>
    exact iff_of_true (h.updateSet fun _ ht => TabSet.nodup_moveToFront ht tab) not_false
  | remove id tab =>
    refine iff_of_true (h.updateSet fun t ht => ?_) not_false
    rw [TabSet.members_remove]
    exact ht.erase tab
  | makeSet p sink accepts => exact iff_of_true (holdsOnce_makeSet h host p sink accepts) not_false
  | openTab p data sink => exact iff_of_true h not_false
  | edit id text => exact iff_of_true h not_false
  | append id text => exact iff_of_true h not_false
  | setMetadata id data => exact iff_of_true h not_false
  | reload id => exact iff_of_true h not_false
  | save id => exact iff_of_true h not_false
  | saveAs id p => exact iff_of_true h not_false
  | rename id p => exact iff_of_true h not_false
  | delete id folders => exact iff_of_true h not_false

/-- One more operation is performed after the others. -/
theorem performAll_concat (s : Session μ) (ops : List (Host × Operation μ)) (host : Host)
    (op : Operation μ) :
    s.performAll (ops ++ [(host, op)]) = ((s.performAll ops).performUnder host op).2 := by
  induction ops generalizing s with
  | nil => rfl
  | cons first ops ih => exact ih (s.performUnder first.1 first.2).2

/-- All along some operations every tab of a set has one position exactly if none of them gives a
tab a second one. -/
theorem holdsOnce_take_iff (h : s.HoldsOnce k) (ops : List (Host × Operation μ)) :
    (∀ n, (s.performAll (ops.take n)).HoldsOnce k) ↔
      ∀ n host op, ops[n]? = some (host, op) →
        ¬ (s.performAll (ops.take n)).Doubles k op := by
  have hnext : ∀ n host op, ops[n]? = some (host, op) → s.performAll (ops.take (n + 1)) =
      ((s.performAll (ops.take n)).performUnder host op).2 := by
    intro n host op hop
    rw [List.take_add_one, hop]
    exact performAll_concat s (ops.take n) host op
  constructor
  · intro honce n host op hop
    have hafter := honce (n + 1)
    rw [hnext n host op hop] at hafter
    exact (holdsOnce_performUnder_iff (honce n) host op).mp hafter
  · intro hnot n
    induction n with
    | zero => exact h
    | succ n ih =>
      cases hop : ops[n]? with
      | none =>
        rw [List.take_add_one, hop]
        simpa using ih
      | some step =>
        rw [hnext n step.1 step.2 hop]
        exact (holdsOnce_performUnder_iff ih step.1 step.2).mpr (hnot n step.1 step.2 hop)

/-- In a set every tab has one position exactly if none has an index once it has been removed. -/
theorem holdsOnce_iff_remove (s : Session μ) (k : SetId) :
    s.HoldsOnce k ↔ ∀ id t, (s.perform (.remove k id)).2.set? k = some t →
      t.indexOf? id = none := by
  have hremove : ∀ id, (s.perform (.remove k id)).2.set? k =
      (s.set? k).map fun t => (t.remove s.workspace id).1 := fun id =>
    (set?_updateSet s k k _).trans (if_pos rfl)
  simp only [hremove, HoldsOnce]
  cases s.set? k with
  | none => simp
  | some t => simpa using t.nodup_iff_indexOf?_remove s.workspace

/-- From a load on, every tab of a set has one position at all times exactly if at no time a tab is
added that is in the set, or replaces another one. At any time this is what it takes for every tab
to be gone from the set once it has been removed. -/
theorem holdsOnce_iff_not_doubles {t : TabSet} {o : ListingOrder} {w : Workspace μ}
    (hloaded : s.set? k = some (t.loadIn o w).2.1) (ops : List (Host × Operation μ)) :
    ((∀ n, (s.performAll (ops.take n)).HoldsOnce k) ↔
      ∀ n host op, ops[n]? = some (host, op) →
        ¬ (s.performAll (ops.take n)).Doubles k op) ∧
    ∀ n, (s.performAll (ops.take n)).HoldsOnce k ↔
      ∀ id u, ((s.performAll (ops.take n)).perform (.remove k id)).2.set? k = some u →
        u.indexOf? id = none := by
  refine ⟨holdsOnce_take_iff ?_ ops, fun n => holdsOnce_iff_remove _ k⟩
  intro u hu
  rw [hloaded] at hu
  obtain rfl := Option.some.inj hu
  exact t.nodup_loadIn o w

/-- A session with one set, whose tabs have been loaded from the folder `/B`: 1 is that of `0.c`, 2
that of `B.ino`, and 3 that of `a.c`. -/
def blinkSession : Session Unit :=
  let loaded := (TabSet.blink.loadIn .asKept (TabSet.blinkOn "none")).2
  ⟨loaded.2, [loaded.1]⟩

/-- A second tab, 4, is opened for `0.c` and added to the set. Then it is put in the position of the
tab with its name, and removed. -/
def replaceByMember : List (Host × Operation Unit) :=
  [(.plain, .openTab ⟨.root, ["B", "0.c"]⟩ none .memory), (.plain, .add 0 4),
    (.plain, .replace 0 4), (.plain, .remove 0 4)]

/-- A tab that was not in the set and has been added replaces another one. It has two positions
then, and is still in the set once it has been removed. -/
theorem members_replaceByMember :
    (TabSet.blink.loadIn .asKept (TabSet.blinkOn "none")).1 = .ok () ∧
      (blinkSession.performAll (replaceByMember.take 1)).sets.map (·.members) = [[2, 1, 3]] ∧
      (blinkSession.performAll (replaceByMember.take 2)).sets.map (·.members) = [[2, 1, 3, 4]] ∧
      (blinkSession.performAll (replaceByMember.take 3)).sets.map (·.members) = [[2, 4, 3, 4]] ∧
      (blinkSession.performAll replaceByMember).sets.map (·.indexOf? 4) = [some 2] := by
  decide +kernel

/-- The tab of `a.c` is moved to the front, and that of `0.c` is put in its own position. -/
theorem holdsOnce_blinkSession :
    blinkSession.set? 0 = some (TabSet.blink.loadIn .asKept (TabSet.blinkOn "none")).2.1 ∧
      ∀ n, (blinkSession.performAll
        (List.take n [(.plain, .moveToFront 0 3), (.plain, .replace 0 1)])).HoldsOnce 0 := by
  have hloaded : blinkSession.set? 0 =
      some (TabSet.blink.loadIn .asKept (TabSet.blinkOn "none")).2.1 := rfl
  refine ⟨hloaded, (holdsOnce_iff_not_doubles hloaded _).1.mpr fun n host op hop => ?_⟩
  match n with
  | 0 =>
    cases hop
    exact not_false
  | 1 =>
    cases hop
    rintro ⟨-, t, ht, -, hother⟩
    have hown : ((blinkSession.performAll [(.plain, .moveToFront 0 3)]).set? 0).bind
        (·.find? (blinkSession.performAll [(.plain, .moveToFront 0 3)]).workspace "0.c") =
          some 1 := by
      decide +kernel
    have hname : ((blinkSession.performAll [(.plain, .moveToFront 0 3)]).workspace.tab 1).filename =
        "0.c" := by decide +kernel
    rw [← hname] at hown
    have hset : (blinkSession.performAll [(.plain, .moveToFront 0 3)]).set? 0 = some t := ht
    rw [hset] at hown
    exact hother hown
  | n + 2 => cases hop

end Session

end Sketchbook
