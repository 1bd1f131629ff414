/-!
# Glob patterns

Patterns for file names: a star stands for any run of characters within one path component, a
question mark for one of them, and brackets for one character of a class. `Glob.Matches` says
which texts a pattern stands for, and `Glob.rests` finds every way to match the front of a text,
the longest runs first. Main statement: `Glob.mem_rests`.
-/

namespace Sketchbook

namespace Glob

/-- One item of a class. -/
inductive ClassItem
  /-- This very character. -/
  | single (c : Char)
  /-- Every character from the first one to the last. -/
  | range (first last : Char)
  deriving DecidableEq, Repr

/-- Whether a character belongs to the item. -/
def ClassItem.contains : ClassItem → Char → Bool
  | .single d, c => c == d
  | .range first last, c => first ≤ c && c ≤ last

/-- One part of a pattern. -/
inductive Token
  /-- Any run of characters other than the slash. -/
  | run
  /-- One character other than the slash. -/
  | one
  /-- This very character. -/
  | literal (c : Char)
  /-- One character that belongs to one of the items, or, if `negated`, to none of them. -/
  | oneOf (negated : Bool) (items : List ClassItem)
  deriving DecidableEq, Repr

/-- Whether a part that stands for one character stands for this one. A run does not. -/
def Token.accepts : Token → Char → Bool
  | .run, _ => false
  | .one, c => c != '/'
  | .literal d, c => c == d
  | .oneOf negated items, c => items.any (·.contains c) != negated

end Glob

/-- A pattern, as its parts in order. -/
abbrev Glob := List Glob.Token

namespace Glob

/-- The texts that a pattern stands for. -/
inductive Matches : Glob → List Char → Prop
  | nil : Matches [] []
  | runEnd {g : Glob} {cs : List Char} : Matches g cs → Matches (.run :: g) cs
  | runStep {g : Glob} {c : Char} {cs : List Char} :
      c ≠ '/' → Matches (.run :: g) cs → Matches (.run :: g) (c :: cs)
  | one {t : Token} {g : Glob} {c : Char} {cs : List Char} :
      t.accepts c = true → Matches g cs → Matches (t :: g) (c :: cs)

/-- What can be left of a text after a run at its front, the shortest rest first. -/
def runRests : List Char → List (List Char)
  | [] => [[]]
  | c :: cs => if c == '/' then [c :: cs] else runRests cs ++ [c :: cs]

/-- What can be left of a text after matching the pattern at its front. The runs are tried from
the longest to the shortest, those further left first. -/
def rests : Glob → List Char → List (List Char)
  | [], cs => [cs]
  | .run :: g, cs => (runRests cs).flatMap (rests g)
  | _ :: _, [] => []
  | t :: g, c :: cs => if t.accepts c then rests g cs else []

theorem mem_runRests {cs r : List Char} :
    r ∈ runRests cs ↔ ∃ m, cs = m ++ r ∧ ∀ c ∈ m, c ≠ '/' := by
  induction cs with
  | nil =>
    simp only [runRests, List.mem_singleton, List.nil_eq, List.append_eq_nil_iff]
    exact ⟨fun h => ⟨[], ⟨rfl, h⟩, by simp⟩, fun ⟨_, h, _⟩ => h.2⟩
  | cons c cs ih =>
    by_cases hc : c = '/'
    · simp only [runRests, hc, beq_self_eq_true, if_true, List.mem_singleton]
      constructor
      · rintro rfl; exact ⟨[], rfl, by simp⟩
      · rintro ⟨m, h, hm⟩
        cases m with
        | nil => simpa using h.symm
        | cons d m =>
          simp only [List.cons_append, List.cons.injEq] at h
          exact absurd h.1.symm (hm d (by simp))
    · simp only [runRests, beq_iff_eq, hc, if_false, List.mem_append, ih, List.mem_singleton]
      constructor
      · rintro (⟨m, h, hm⟩ | rfl)
        · exact ⟨c :: m, by simp [h], by simpa [hc] using hm⟩
        · exact ⟨[], rfl, by simp⟩
      · rintro ⟨m, h, hm⟩
        cases m with
        | nil => exact Or.inr (by simpa using h.symm)
        | cons d m =>
          simp only [List.cons_append, List.cons.injEq] at h
          exact Or.inl ⟨m, h.2, fun x hx => hm x (by simp [hx])⟩

theorem matches_run_cons {g : Glob} {m : List Char} :
    Matches (.run :: g) m ↔ ∃ a b, m = a ++ b ∧ (∀ c ∈ a, c ≠ '/') ∧ Matches g b := by
  constructor
  · intro h
    generalize hg : Token.run :: g = gs at h
    induction h with
    | nil => cases hg
    | runEnd h _ =>
      cases hg
      exact ⟨[], _, rfl, by simp, h⟩
    | @runStep _ c _ hc _ ih =>
      obtain ⟨a, b, rfl, ha, hb⟩ := ih hg
      exact ⟨c :: a, b, rfl, by simpa [hc] using ha, hb⟩
    | one ht _ _ =>
      cases hg
      simp [Token.accepts] at ht
  · rintro ⟨a, b, rfl, ha, hb⟩
    induction a with
    | nil => exact .runEnd hb
    | cons c a ih =>
      exact .runStep (ha c (by simp)) (ih fun d hd => ha d (by simp [hd]))

theorem matches_cons {t : Token} (ht : t ≠ .run) {g : Glob} {m : List Char} :
    Matches (t :: g) m ↔ ∃ c b, m = c :: b ∧ t.accepts c = true ∧ Matches g b := by
  constructor
  · intro h
    cases h with
    | runEnd _ => exact absurd rfl ht
    | runStep _ _ => exact absurd rfl ht
    | one hc h => exact ⟨_, _, rfl, hc, h⟩
  · rintro ⟨c, b, rfl, hc, h⟩
    exact .one hc h

/-- What can be left over is exactly what follows a text that the pattern stands for. -/
theorem mem_rests {g : Glob} {cs r : List Char} :
    r ∈ rests g cs ↔ ∃ m, cs = m ++ r ∧ Matches g m := by
  induction g generalizing cs with
  | nil =>
    simp only [rests, List.mem_singleton]
    constructor
    · rintro rfl
      exact ⟨[], rfl, .nil⟩
    · rintro ⟨m, rfl, h⟩
      cases h
      rfl
  | cons t g ih =>
    by_cases ht : t = .run
    · subst ht
      simp only [rests, List.mem_flatMap, mem_runRests, ih, matches_run_cons]
      constructor
      · rintro ⟨s, ⟨a, rfl, ha⟩, b, rfl, hb⟩
        exact ⟨a ++ b, by simp, a, b, rfl, ha, hb⟩
      · rintro ⟨m, rfl, a, b, rfl, ha, hb⟩
        exact ⟨b ++ r, ⟨a, by simp, ha⟩, b, rfl, hb⟩
    · simp only [matches_cons ht]
      cases cs with
      | nil =>
        have step : rests (t :: g) [] = [] := by
          cases t with
          | run => exact absurd rfl ht
          | _ => rfl
        simp only [step, List.not_mem_nil, false_iff]
        rintro ⟨m, h, c, b, rfl, _⟩
        simp at h
      | cons c cs =>
        have step : rests (t :: g) (c :: cs) = if t.accepts c then rests g cs else [] := by
          cases t with
          | run => exact absurd rfl ht
          | _ => rfl
        rw [step]
        constructor
        · intro h
          split at h
          · next hc =>
            obtain ⟨b, rfl, hb⟩ := ih.mp h
            exact ⟨c :: b, rfl, c, b, rfl, hc, hb⟩
          · simp at h
        · rintro ⟨m, h, d, b, rfl, hd, hb⟩
          simp only [List.cons_append, List.cons.injEq] at h
          obtain ⟨rfl, rfl⟩ := h
          rw [if_pos hd]
          exact ih.mpr ⟨b, rfl, hb⟩

end Glob

end Sketchbook
