import Sketchbook.Text.Glob.Basic

/-!
# Searching with a table

To try every way in which a pattern can match takes long where the pattern has many runs. What is
searched for can be kept in a table instead, with an entry for each suffix of the text, which is
made part by part from the end of the pattern. Main statement: `Glob.findTable_eq`.
-/

namespace Sketchbook.Glob

variable {α : Type}

/-- The suffixes of a text, from the text itself to the empty one. -/
def suffixes : List Char → List (List Char)
  | [] => [[]]
  | c :: cs => (c :: cs) :: suffixes cs

/-- The table with a run in front: from what is found at each suffix of the text, what is found
there after a run. A longer run goes before a shorter one. -/
def runTable : List (Option α) → List Char → List (Option α)
  | v :: vs, c :: cs =>
    let later := runTable vs cs
    (if c == '/' then v else later.head?.join.or v) :: later
  | vs, _ => vs

/-- The table with a part in front that stands for one character. -/
def oneTable (t : Token) : List (Option α) → List Char → List (Option α)
  | _ :: vs, c :: cs => (if t.accepts c then vs.head?.join else none) :: oneTable t vs cs
  | _, _ => [none]

/-- For each suffix of a text, what `f` finds first in what is left of it after the pattern. -/
def findTable (f : List Char → Option α) : Glob → List Char → List (Option α)
  | [], cs => (suffixes cs).map f
  | .run :: g, cs => runTable (findTable f g cs) cs
  | t :: g, cs => oneTable t (findTable f g cs) cs

theorem head?_suffixes (cs : List Char) : (suffixes cs).head? = some cs := by
  cases cs <;> rfl

theorem findSome?_flatMap {β γ : Type} (f : γ → Option α) (g : β → List γ) (bs : List β) :
    (bs.flatMap g).findSome? f = bs.findSome? fun b => (g b).findSome? f := by
  induction bs with
  | nil => rfl
  | cons b bs ih =>
    rw [List.flatMap_cons, List.findSome?_append, ih, List.findSome?_cons]
    cases (g b).findSome? f <;> rfl

theorem runTable_suffixes (h : List Char → Option α) (cs : List Char) :
    runTable ((suffixes cs).map h) cs =
      (suffixes cs).map fun r => (runRests r).findSome? h := by
  induction cs with
  | nil => simp [suffixes, runTable, runRests]
  | cons c cs ih =>
    simp only [suffixes, List.map_cons, runTable, ih, List.head?_map, head?_suffixes,
      Option.map_some, Option.join_some, runRests]
    by_cases hc : c = '/' <;> simp [hc, List.findSome?_append]

theorem oneTable_suffixes (t : Token) (h : List Char → Option α) (cs : List Char) :
    oneTable t ((suffixes cs).map h) cs =
      (suffixes cs).map fun r => match r with
        | [] => none
        | c :: cs => if t.accepts c then h cs else none := by
  induction cs with
  | nil => simp [suffixes, oneTable]
  | cons c cs ih =>
    simp [suffixes, oneTable, ih, head?_suffixes]

/-- The table holds for each suffix what is found first among the rests of the pattern there. -/
theorem findTable_eq (f : List Char → Option α) (g : Glob) (cs : List Char) :
    findTable f g cs = (suffixes cs).map fun r => (rests g r).findSome? f := by
  induction g with
  | nil => simp [findTable, rests]
  | cons t g ih =>
    by_cases ht : t = .run
    · subst ht
      simp only [findTable, ih, runTable_suffixes, rests, findSome?_flatMap]
    · have step : findTable f (t :: g) cs = oneTable t (findTable f g cs) cs := by
        cases t with
        | run => exact absurd rfl ht
        | _ => rfl
      rw [step, ih, oneTable_suffixes]
      refine List.map_congr_left fun r _ => ?_
      cases r with
      | nil => cases t with
        | run => exact absurd rfl ht
        | _ => rfl
      | cons c r =>
        have rest : rests (t :: g) (c :: r) = if t.accepts c then rests g r else [] := by
          cases t with
          | run => exact absurd rfl ht
          | _ => rfl
        rw [rest]
        by_cases hc : t.accepts c = true <;> simp [hc]

end Sketchbook.Glob
