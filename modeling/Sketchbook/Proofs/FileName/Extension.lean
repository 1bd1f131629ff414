import Sketchbook.FileName.Extension
import Sketchbook.FileName.Sanitary
import Sketchbook.Proofs.Path.EntryName
import Sketchbook.Proofs.Text.Lowercase

/-!
# File names cut at an extension

The extensions of tabs have plain characters only, so that a file name which carries one of them
ends in it but for the case of its letters (`exists_append_of_splitExtension?`). A file name that
is sanitary but for its extension has therefore no other characters than a sanitary name
(`isTabName_of_isSanitary`), and is the name of an entry (`IsTabName.isEntryName`).
-/

namespace Sketchbook

/-- What is cut off is the extension, if it is no longer than the text. -/
theorem cutEnd_append {α : Type} (front tail : List α) :
    cutEnd tail.length (front ++ tail) = front := by
  have hle : tail.length ≤ (front ++ tail).length := by simp
  rw [cutEnd, if_pos hle]
  simp

/-- The mark of an extension of tabs is short, and has plain characters only, such as a name may
hold. -/
theorem plain_extensionMark : ∀ e ∈ sourceExtensions,
    (extensionMark e).all isPlainLower = true ∧ (extensionMark e).all mayContinueName = true ∧
      (extensionMark e).length ≤ 4 := by
  decide +kernel

/-- A file name with an extension of tabs is what is left when it is cut, followed by the
extension in some case. -/
theorem exists_append_of_splitExtension? {filename base : String}
    (h : splitExtension? filename sourceExtensions = some base) :
    ∃ e ∈ sourceExtensions, ∃ tail,
      filename.toList = base.toList ++ tail ∧ tail.map Char.toLower = extensionMark e := by
  obtain ⟨e, hfind, hbase⟩ := Option.map_eq_some_iff.mp h
  have hmem : e ∈ sourceExtensions := List.mem_of_find?_eq_some hfind
  have hcarries : carries e filename = true := by simpa using List.find?_some hfind
  have hsuffix : extensionMark e <:+ lowerFrom false filename.toList :=
    List.isSuffixOf_iff_suffix.mp hcarries
  have hplain : ∀ c ∈ extensionMark e, isPlainLower c = true :=
    List.all_eq_true.mp (plain_extensionMark e hmem).1
  obtain ⟨front, tail, hsplit, htail⟩ := exists_append_of_suffix_lowerFrom hplain hsuffix
  refine ⟨e, hmem, tail, ?_, htail⟩
  have hlength : (extensionMark e).length = tail.length := by
    rw [← htail, List.length_map]
  rw [← hbase, hlength, hsplit, cutEnd_append, String.toList_ofList]

/-- A file name that may be given to a tab: a short one without a dot in front, that has letters,
digits, underscores, dots and hyphens of ASCII only. -/
structure IsTabName (n : String) : Prop where
  ne_empty : n ≠ ""
  noDot : n.toList.head? ≠ some '.'
  chars : ∀ c ∈ n.toList, mayContinueName c = true
  length_le : n.length ≤ 67

/-- There is no slash in the name of a tab. -/
theorem IsTabName.not_mem_slash {n : String} (h : IsTabName n) : '/' ∉ n.toList := by
  intro hslash
  exact absurd (h.chars _ hslash) (by decide)

/-- The name of a tab is that of an entry. -/
theorem IsTabName.isEntryName {n : String} (h : IsTabName n) : IsEntryName n := by
  cases htoList : n.toList with
  | nil => exact absurd (String.toList_eq_nil_iff.mp htoList) h.ne_empty
  | cons c cs =>
    refine .of_toList htoList ?_ h.not_mem_slash
    rintro rfl
    exact h.noDot (by rw [htoList, List.head?_cons])

/-- What a sanitary name is made of. -/
theorem exists_cons_of_isSanitary {base : String} (h : isSanitary base = true) :
    ∃ c cs, base.toList = c :: cs ∧ c ≠ '.' ∧ (∀ d ∈ base.toList, mayContinueName d = true) ∧
      base.toList.length ≤ maxNameLength := by
  unfold isSanitary at h
  cases hbase : base.toList with
  | nil => simp [hbase] at h
  | cons c cs =>
    simp only [hbase, Bool.and_eq_true, List.all_eq_true, decide_eq_true_eq] at h
    obtain ⟨⟨hlength, hbegin⟩, hcontinue⟩ := h
    refine ⟨c, cs, rfl, ?_, ?_, hlength⟩
    · rintro rfl
      exact absurd hbegin (by decide)
    · intro d hd
      rcases List.mem_cons.mp hd with rfl | hd
      · rw [mayBeginName] at hbegin
        simp [mayContinueName, hbegin]
      · exact hcontinue d hd

/-- A character that a name may hold in lowercase, it may hold in any case. -/
theorem mayContinueName_of_toLower {c : Char} (h : mayContinueName c.toLower = true) :
    mayContinueName c = true := by
  unfold Char.toLower at h
  split at h
  · next hrange =>
    have hupper : c.isUpper = true := decide_eq_true hrange
    have hletter : c.isAlphanum = true := by
      change (c.isUpper || c.isLower || c.isDigit) = true
      rw [hupper, Bool.true_or, Bool.true_or]
    rw [mayContinueName, hletter, Bool.true_or, Bool.true_or, Bool.true_or]
  · exact h

/-- A file name that is sanitary but for its extension may be given to a tab. -/
theorem isTabName_of_isSanitary {filename base : String}
    (h : splitExtension? filename sourceExtensions = some base) (hbase : isSanitary base = true) :
    IsTabName filename := by
  obtain ⟨e, he, tail, hsplit, htail⟩ := exists_append_of_splitExtension? h
  obtain ⟨c, cs, hcons, hc, hchars, hlength⟩ := exists_cons_of_isSanitary hbase
  obtain ⟨-, hmark, hshort⟩ := plain_extensionMark e he
  have htoList : filename.toList = c :: (cs ++ tail) := by
    rw [hsplit, hcons, List.cons_append]
  refine ⟨?_, ?_, ?_, ?_⟩
  · rintro rfl
    cases htoList
  · rw [htoList, List.head?_cons]
    exact fun hdot => hc (Option.some.inj hdot)
  · intro d hd
    rw [hsplit] at hd
    rcases List.mem_append.mp hd with hd | hd
    · exact hchars d hd
    · refine mayContinueName_of_toLower (List.all_eq_true.mp hmark _ ?_)
      exact htail ▸ List.mem_map_of_mem hd
  · have htailLength : tail.length = (extensionMark e).length := by
      rw [← htail, List.length_map]
    rw [← String.length_toList, hsplit, List.length_append, htailLength]
    unfold maxNameLength at hlength
    omega

/-- A file name that the usual policy accepts without its extension may be given to a tab. -/
theorem isTabName_of_acceptsSanitary {filename : String}
    (h : acceptsSanitary (splitExtension? filename sourceExtensions) = true) :
    IsTabName filename := by
  obtain ⟨base, hbase, hsanitary⟩ := (Option.any_eq_true _ _).mp h
  exact isTabName_of_isSanitary hbase hsanitary

end Sketchbook
