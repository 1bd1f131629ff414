import Mathlib.Data.List.DropRight
import Sketchbook.Proofs.FileName.LastDot
import Sketchbook.Proofs.Text.Lowered
import Sketchbook.Path

/-!
# Extensions in normal form

An extension may be given with dots in front and in any case. Its normal form is a text in
lowercase, which stays the same when it is brought into normal form again, although the text it
comes from may have been longer or shorter and a capital sigma in it stood between other letters
(`normalizeExtension_normalizeExtension`). So the mark of a normalized extension is a dot and the
extension as it is, and a file name carries one that has no dot of its own just if this extension
follows the last dot of the name in lowercase (`hasExtension_normalized`).
-/

namespace Sketchbook

/-- A normalized extension is in lowercase. -/
theorem lowerChars_normalizeExtension (e : String) :
    lowerChars (normalizeExtension e).toList = (normalizeExtension e).toList := by
  refine lowerFrom_eq_self (fun c hc => ?_) false
  rw [normalizeExtension, String.toList_ofList] at hc
  exact isLowered_of_mem_lowerFrom ((List.dropWhile_suffix _).subset hc)

/-- A normalized extension is its own normal form. -/
theorem normalizeExtension_normalizeExtension (e : String) :
    normalizeExtension (normalizeExtension e) = normalizeExtension e := by
  conv_lhs => rw [normalizeExtension, lowerChars_normalizeExtension]
  rw [normalizeExtension, String.toList_ofList, List.dropWhile_idempotent]

/-- Extensions brought into normal form stay as they are when this is done again. -/
theorem map_normalizeExtension (exts : List String) :
    (exts.map normalizeExtension).map normalizeExtension = exts.map normalizeExtension := by
  rw [List.map_map]
  exact List.map_congr_left fun e _ => normalizeExtension_normalizeExtension e

/-- A name carries a normalized extension if its lowercase ends in a dot and the extension. -/
theorem carries_normalizeExtension_iff {e filename : String} :
    carries (normalizeExtension e) filename = true ↔
      '.' :: (normalizeExtension e).toList <:+ lowerChars filename.toList := by
  rw [carries, List.isSuffixOf_iff_suffix, extensionMark, lowerChars_normalizeExtension]

/-- Whether a name carries one of the extensions is asked of their normal forms. -/
theorem hasExtension_eq_true_iff {filename : String} {exts : List String} :
    hasExtension filename exts = true ↔ ∃ n ∈ exts.map normalizeExtension,
      '.' :: n.toList <:+ lowerChars filename.toList := by
  rw [hasExtension, splitExtension?_isSome, List.any_eq_true]
  constructor
  · rintro ⟨n, hn, hcarries⟩
    obtain ⟨e, -, rfl⟩ := List.mem_map.mp hn
    exact ⟨_, hn, carries_normalizeExtension_iff.mp hcarries⟩
  · rintro ⟨n, hn, hsuffix⟩
    obtain ⟨e, -, rfl⟩ := List.mem_map.mp hn
    exact ⟨_, hn, carries_normalizeExtension_iff.mpr hsuffix⟩

/-- Bringing extensions into normal form a second time changes nothing, and a name carries the same
of them before and after it is done. Where no normal form has a dot, a name carries one of the
extensions just if there is a dot in its lowercase and the text after the last dot is the normal
form of an extension. -/
theorem hasExtension_normalized (exts : List String) :
    (exts.map normalizeExtension).map normalizeExtension = exts.map normalizeExtension ∧
    (∀ p : Path, hasExtension p.name exts = hasExtension p.name (exts.map normalizeExtension)) ∧
    ((∀ n ∈ exts.map normalizeExtension, '.' ∉ n.toList) →
      ∀ p : Path, hasExtension p.name exts = true ↔
        ∃ tail, afterLastDot? (lowerChars p.name.toList) = some tail ∧
          String.ofList tail ∈ exts.map normalizeExtension) := by
  refine ⟨map_normalizeExtension exts, ?_, ?_⟩
  · intro p
    rw [hasExtension, hasExtension, map_normalizeExtension]
  · intro hdots p
    rw [hasExtension_eq_true_iff]
    constructor
    · rintro ⟨n, hn, hsuffix⟩
      refine ⟨n.toList, afterLastDot?_eq_some_iff.mpr ⟨hsuffix, hdots n hn⟩, ?_⟩
      rwa [String.ofList_toList]
    · rintro ⟨tail, hlast, hn⟩
      refine ⟨_, hn, ?_⟩
      rw [String.toList_ofList]
      exact (afterLastDot?_eq_some_iff.mp hlast).1

/-- One extension becomes longer in lowercase and ends in a final sigma, another has two dots in
front. A name with a dot inside is asked for both. -/
theorem hasExtension_normalized_sigma :
    [".İΣ", "..CPP"].map normalizeExtension = ["i\u0307ς", "cpp"] ∧
      hasExtension (Path.ofString "sketch/a.b.İΣ").name [".İΣ", "..CPP"] = true ∧
      hasExtension (Path.ofString "sketch/a.cpp.b").name [".İΣ", "..CPP"] = false := by
  have hnormal : [".İΣ", "..CPP"].map normalizeExtension = ["i\u0307ς", "cpp"] := by decide +kernel
  obtain ⟨-, -, hlast⟩ := hasExtension_normalized [".İΣ", "..CPP"]
  rw [hnormal] at hlast
  have hiff := hlast (by decide)
  refine ⟨hnormal, (hiff _).mpr ⟨['i', '\u0307', 'ς'], by decide +kernel, by decide⟩, ?_⟩
  refine Bool.eq_false_iff.mpr fun h => ?_
  obtain ⟨tail, htail, hmem⟩ := (hiff _).mp h
  have hb : afterLastDot? (lowerChars (Path.ofString "sketch/a.cpp.b").name.toList) =
      some ['b'] := by
    decide +kernel
  rw [hb, Option.some_inj] at htail
  rw [← htail] at hmem
  exact absurd hmem (by decide)

end Sketchbook
