/-!
# Name trees

A name tree keeps values under lists of names: one at its root, and one at each end of a branch
that has one. To look up a list of names takes one step for each of them, whatever else the tree
holds. `NameTree.get?` is the view through which a tree is read, and `NameTree.graft`, which puts
a whole tree in place of all that is found below a list of names, is what every change is made
of. Main statements: `NameTree.get?_graft` and `NameTree.mem_names`.
-/

namespace Sketchbook

/-- Branches side by side. Each has a name, the value at its end, if there is one, and the
branches that go on from there. Of two branches with the same name the first one counts. -/
inductive Branches (α : Type)
  | nil
  | cons (name : String) (value : Option α) (further : Branches α) (rest : Branches α)
  deriving DecidableEq, Repr

/-- A tree of values: the one at the root, if there is one, and the branches that start there. -/
structure NameTree (α : Type) where
  value : Option α
  branches : Branches α
  deriving DecidableEq, Repr

/-- Adds a name to names in order, unless it is there. -/
def insertName (n : String) : List String → List String
  | [] => [n]
  | m :: ms => if n < m then n :: m :: ms else if n = m then m :: ms else m :: insertName n ms

variable {α β : Type}

namespace Branches

/-- The tree at the end of the branch with this name; it is empty if there is none. -/
def find (name : String) : Branches α → NameTree α
  | nil => ⟨none, nil⟩
  | cons n v further rest => if n = name then ⟨v, further⟩ else rest.find name

/-- The branches with another tree at the end of the one with this name. -/
def set (name : String) (t : NameTree α) : Branches α → Branches α
  | nil => cons name t.value t.branches nil
  | cons n v further rest =>
    if n = name then cons n t.value t.branches rest else cons n v further (rest.set name t)

/-- The names of the branches. -/
def names : Branches α → List String
  | nil => []
  | cons n _ _ rest => n :: rest.names

/-- The branches with another value for each value. -/
def map (f : α → β) : Branches α → Branches β
  | nil => nil
  | cons n v further rest => cons n (v.map f) (further.map f) (rest.map f)

/-- The number of branches, the further ones included. -/
def size : Branches α → Nat
  | nil => 0
  | cons _ _ further rest => further.size + rest.size + 1

/-- The values, each with the names that lead to it, the names in `front` before them. -/
def toList (front : List String) : Branches α → List (List String × α)
  | nil => []
  | cons n v further rest =>
    (v.toList.map fun a => (front ++ [n], a)) ++ further.toList (front ++ [n]) ++
      rest.toList front

theorem find_set (name other : String) (t : NameTree α) (bs : Branches α) :
    (bs.set name t).find other = if other = name then t else bs.find other := by
  induction bs with
  | nil =>
    by_cases h : other = name
    · simp [set, find, h]
    · simp [set, find, h, Ne.symm h]
  | cons n v further rest _ ih =>
    by_cases hn : n = name
    · subst hn
      by_cases h : other = n
      · simp [set, find, h]
      · simp [set, find, h, Ne.symm h]
    · by_cases h : n = other
      · subst h
        simp [set, find, hn]
      · simp [set, find, hn, h, ih]

theorem set_set (name : String) (s t : NameTree α) (bs : Branches α) :
    (bs.set name s).set name t = bs.set name t := by
  induction bs with
  | nil => simp [set]
  | cons n v further rest _ ih =>
    by_cases hn : n = name
    · simp [set, hn]
    · simp [set, hn, ih]

theorem mem_names_of_find {name : String} {bs : Branches α}
    (h : (bs.find name).value.isSome = true) : name ∈ bs.names := by
  induction bs with
  | nil => simp [find] at h
  | cons n v further rest _ ih =>
    by_cases hn : n = name
    · simp [names, hn]
    · rw [find, if_neg hn] at h
      simp [names, ih h]

end Branches

namespace NameTree

/-- The tree without any value. -/
def empty : NameTree α :=
  ⟨none, .nil⟩

/-- The tree that is found below a list of names. -/
def sub (t : NameTree α) : List String → NameTree α
  | [] => t
  | n :: ns => (t.branches.find n).sub ns

/-- The tree with another one in place of all that is found below a list of names. -/
def graft (t : NameTree α) : List String → NameTree α → NameTree α
  | [], s => s
  | n :: ns, s => { t with branches := t.branches.set n ((t.branches.find n).graft ns s) }

/-- The value under a list of names. -/
def get? (t : NameTree α) (p : List String) : Option α :=
  (t.sub p).value

/-- The tree with this value under a list of names. -/
def insert (t : NameTree α) (p : List String) (a : α) : NameTree α :=
  t.graft p { t.sub p with value := some a }

/-- The tree with no value under a list of names. -/
def erase (t : NameTree α) (p : List String) : NameTree α :=
  t.graft p { t.sub p with value := none }

/-- The tree with another value for each value. -/
def map (f : α → β) (t : NameTree α) : NameTree β :=
  ⟨t.value.map f, t.branches.map f⟩

/-- The names one step from the root that have a value, in order. -/
def names (t : NameTree α) : List String :=
  (t.branches.names.filter fun n => (t.branches.find n).value.isSome).foldr insertName []

theorem get?_nil (t : NameTree α) : t.get? [] = t.value := rfl

theorem get?_cons (t : NameTree α) (n : String) (ns : List String) :
    t.get? (n :: ns) = (t.branches.find n).get? ns := rfl

theorem get?_sub (t : NameTree α) (p q : List String) : (t.sub p).get? q = t.get? (p ++ q) := by
  induction p generalizing t with
  | nil => rfl
  | cons n ns ih => exact ih (t.branches.find n)

@[simp] theorem get?_empty (p : List String) : (empty : NameTree α).get? p = none := by
  induction p with
  | nil => rfl
  | cons n ns ih => exact ih

/-- After a graft the values below the names are those of the tree that was put there, and all
others are as they were. -/
theorem get?_graft (t s : NameTree α) (p q : List String) :
    (t.graft p s).get? q =
      if p.isPrefixOf q then s.get? (q.drop p.length) else t.get? q := by
  induction p generalizing t q with
  | nil => rfl
  | cons n ns ih =>
    cases q with
    | nil => rfl
    | cons m ms =>
      rw [graft, get?_cons, Branches.find_set]
      by_cases h : m = n
      · subst h
        simp [ih, get?_cons]
      · simp [h, Ne.symm h, get?_cons]

theorem sub_graft (t s : NameTree α) (p : List String) : (t.graft p s).sub p = s := by
  induction p generalizing t with
  | nil => rfl
  | cons n ns ih => rw [graft, sub, Branches.find_set, if_pos rfl, ih]

/-- Of two grafts below the same names the second one counts. -/
theorem graft_graft (t r s : NameTree α) (p : List String) :
    (t.graft p r).graft p s = t.graft p s := by
  induction p generalizing t with
  | nil => rfl
  | cons n ns ih => simp only [graft, Branches.find_set, if_pos, ih, Branches.set_set]

theorem get?_setValue (t : NameTree α) (p q : List String) (v : Option α) :
    (t.graft p { t.sub p with value := v }).get? q = if q = p then v else t.get? q := by
  rw [get?_graft]
  by_cases h : q = p
  · subst h
    simp [get?_nil]
  · rw [if_neg h]
    split
    · next hp =>
      obtain ⟨r, rfl⟩ := List.isPrefixOf_iff_prefix.mp hp
      cases r with
      | nil => simp at h
      | cons m ms => simp [get?_cons, ← get?_sub]
    · rfl

theorem get?_insert (t : NameTree α) (p q : List String) (a : α) :
    (t.insert p a).get? q = if q = p then some a else t.get? q :=
  t.get?_setValue p q (some a)

theorem insert_insert (t : NameTree α) (p : List String) (a b : α) :
    (t.insert p a).insert p b = t.insert p b := by
  simp only [insert, sub_graft, graft_graft]

theorem get?_erase (t : NameTree α) (p q : List String) :
    (t.erase p).get? q = if q = p then none else t.get? q :=
  t.get?_setValue p q none

end NameTree

theorem mem_insertName {n m : String} {ms : List String} :
    m ∈ insertName n ms ↔ m = n ∨ m ∈ ms := by
  induction ms with
  | nil => simp [insertName]
  | cons k ks ih =>
    rw [insertName]
    split
    · simp
    · split
      · next h => subst h; simp
      · simp only [List.mem_cons, ih]; grind

theorem mem_foldr_insertName {n : String} {ns : List String} :
    n ∈ ns.foldr insertName [] ↔ n ∈ ns := by
  induction ns with
  | nil => simp
  | cons m ms ih => simp [mem_insertName, ih]

/-- The names one step from the root are those under which there is a value. -/
theorem NameTree.mem_names {t : NameTree α} {n : String} :
    n ∈ t.names ↔ (t.get? [n]).isSome = true := by
  rw [names, mem_foldr_insertName, List.mem_filter]
  exact ⟨fun h => h.2, fun h => ⟨Branches.mem_names_of_find h, h⟩⟩

end Sketchbook
