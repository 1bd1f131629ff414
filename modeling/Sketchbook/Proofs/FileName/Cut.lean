import Sketchbook.Proofs.FileName.Extension
import Sketchbook.Proofs.Text.Caseless

/-!
# What is cut off a file name

A file name carries an extension if its lowercase ends in the mark of the extension, and as many
characters are cut off the name as the mark has, although the lowercase of a text may be longer than
the text. For the extensions of tabs this is right: the name ends in a dot and the extension but for
the case of ASCII letters, and just this is cut off (`splitExtension?_exact`). It carries no other
of them, so that their order plays no part.
-/

namespace Sketchbook

/-- Whether two texts are the same but for the case of their ASCII letters. -/
def EqualButCase (s t : String) : Prop :=
  s.toList.map Char.toLower = t.toList.map Char.toLower

instance (s t : String) : Decidable (EqualButCase s t) :=
  inferInstanceAs (Decidable (s.toList.map Char.toLower = t.toList.map Char.toLower))

/-! ### The mark of an extension -/

/-- The mark of an extension of tabs is a dot and the extension, which has no dot of its own. -/
theorem extensionMark_eq : ∀ e ∈ sourceExtensions,
    extensionMark e = '.' :: e.toList.map Char.toLower ∧ '.' ∉ e.toList.map Char.toLower := by
  decide +kernel

/-- The extensions of tabs differ in more than the case of their letters. -/
theorem eq_of_equalButCase : ∀ e ∈ sourceExtensions, ∀ e' ∈ sourceExtensions,
    EqualButCase e e' → e = e' := by
  decide +kernel

/-- What follows the last dot of a text is all that can follow a dot and have none of its own. -/
theorem eq_of_dot_suffix {cs written other : List Char} (h : '.' :: written <:+ cs)
    (h' : '.' :: other <:+ cs) (hwritten : '.' ∉ written) (hother : '.' ∉ other) :
    written = other := by
  rcases List.suffix_or_suffix_of_suffix h h' with hsuffix | hsuffix
  · rcases List.suffix_cons_iff.mp hsuffix with heq | hinside
    · exact (List.cons.inj heq).2
    · exact absurd (hinside.subset List.mem_cons_self) hother
  · rcases List.suffix_cons_iff.mp hsuffix with heq | hinside
    · exact (List.cons.inj heq).2.symm
    · exact absurd (hinside.subset List.mem_cons_self) hwritten

/-- A file name carries one extension of tabs at most. -/
theorem eq_of_carries {filename e e' : String} (he : e ∈ sourceExtensions)
    (he' : e' ∈ sourceExtensions) (h : carries e filename = true)
    (h' : carries e' filename = true) : e = e' := by
  obtain ⟨hmark, hdot⟩ := extensionMark_eq e he
  obtain ⟨hmark', hdot'⟩ := extensionMark_eq e' he'
  have hsuffix := List.isSuffixOf_iff_suffix.mp h
  have hsuffix' := List.isSuffixOf_iff_suffix.mp h'
  rw [hmark] at hsuffix
  rw [hmark'] at hsuffix'
  exact eq_of_equalButCase e he e' he' (eq_of_dot_suffix hsuffix hsuffix' hdot hdot')

/-- No other character becomes a dot when ASCII letters are put in lowercase. -/
theorem eq_dot_of_toLower {c : Char} (h : c.toLower = '.') : c = '.' := by
  have hascii : c.toNat < 128 := toNat_lt_of_toLower (by rw [h]; decide)
  have hkept : c.toLower = c := toLower_eq_of_isCaseless hascii (.inr (by rw [h]; decide))
  rw [← hkept, h]

/-- A file name carries an extension of tabs just if it ends in a dot and the extension, in any
case of its letters. -/
theorem carries_iff {filename e : String} (he : e ∈ sourceExtensions) :
    carries e filename = true ↔
      ∃ base written, filename = base ++ "." ++ written ∧ EqualButCase written e := by
  have hplain : ∀ c ∈ extensionMark e, isPlainLower c = true :=
    List.all_eq_true.mp (plain_extensionMark e he).1
  rw [carries, List.isSuffixOf_iff_suffix, lowerChars, suffix_lowerFrom_iff hplain,
    (extensionMark_eq e he).1]
  constructor
  · rintro ⟨front, tail, hfilename, htail⟩
    obtain ⟨c, written, rfl, hc, hwritten⟩ := List.map_eq_cons_iff.mp htail
    obtain rfl := eq_dot_of_toLower hc
    refine ⟨String.ofList front, String.ofList written, ?_, ?_⟩
    · rw [← String.toList_inj, hfilename]
      simp
    · rw [EqualButCase, String.toList_ofList, hwritten]
  · rintro ⟨base, written, rfl, hwritten⟩
    refine ⟨base.toList, '.' :: written.toList, by simp, ?_⟩
    rw [List.map_cons, hwritten]
    rfl

/-! ### What is left of a file name -/

/-- A base with an extension of tabs behind it is what is left when the extension is cut off, in
whatever list the extensions are looked for. -/
theorem splitExtension?_append {exts : List String} (hexts : ∀ e ∈ exts, e ∈ sourceExtensions)
    {e written : String} (he : e ∈ exts) (h : EqualButCase written e) (base : String) :
    splitExtension? (base ++ "." ++ written) exts = some base := by
  have hcarries : carries e (base ++ "." ++ written) = true :=
    (carries_iff (hexts e he)).mpr ⟨base, written, rfl, h⟩
  have hsome : (exts.find? fun e' => carries e' (base ++ "." ++ written)).isSome = true :=
    List.find?_isSome.mpr ⟨e, he, hcarries⟩
  obtain ⟨found, hfind⟩ := Option.isSome_iff_exists.mp hsome
  have hfound : found = e := by
    have hmem : found ∈ exts := List.mem_of_find?_eq_some hfind
    have hcarries' : carries found (base ++ "." ++ written) = true := by
      simpa using List.find?_some hfind
    exact eq_of_carries (hexts found hmem) (hexts e he) hcarries' hcarries
  -- the mark is as long as the dot and the extension in the name
  have hlength : (extensionMark e).length = ('.' :: written.toList).length := by
    rw [(extensionMark_eq e (hexts e he)).1, ← h, List.length_cons, List.length_map,
      List.length_cons]
  have hsplit : (base ++ "." ++ written).toList = base.toList ++ '.' :: written.toList := by
    simp
  rw [splitExtension?, hfind, Option.map_some, hfound, hlength, hsplit, cutEnd_append,
    String.ofList_toList]

/-- A file name is split just where a dot and an extension of tabs stand at its end, in whatever
order and however often the extensions are listed. -/
theorem splitExtension?_eq_some_iff {exts : List String}
    (hexts : ∀ e, e ∈ exts ↔ e ∈ sourceExtensions) {filename base : String} :
    splitExtension? filename exts = some base ↔
      ∃ written, filename = base ++ "." ++ written ∧
        ∃ e ∈ sourceExtensions, EqualButCase written e := by
  have hsub : ∀ e ∈ exts, e ∈ sourceExtensions := fun e he => (hexts e).mp he
  constructor
  · intro h
    obtain ⟨e, hfind, -⟩ := Option.map_eq_some_iff.mp h
    have he : e ∈ exts := List.mem_of_find?_eq_some hfind
    have hcarries : carries e filename = true := by simpa using List.find?_some hfind
    obtain ⟨front, written, rfl, hwritten⟩ := (carries_iff (hsub e he)).mp hcarries
    rw [splitExtension?_append hsub he hwritten, Option.some_inj] at h
    exact ⟨written, by rw [h], e, hsub e he, hwritten⟩
  · rintro ⟨written, rfl, e, he, hwritten⟩
    exact splitExtension?_append hsub ((hexts e).mpr he) hwritten base

/-- Of a file name exactly a dot and an extension of tabs are cut off, in any case of its letters.
The name carries no other extension, and the order of the extensions plays no part. -/
theorem splitExtension?_exact (filename : String) :
    (∀ base, splitExtension? filename sourceExtensions = some base ↔
      ∃ written, filename = base ++ "." ++ written ∧
        ∃ e ∈ sourceExtensions, EqualButCase written e) ∧
    (∀ e ∈ sourceExtensions, ∀ e' ∈ sourceExtensions, carries e filename = true →
      carries e' filename = true → e = e') ∧
    ∀ exts : List String, exts.Perm sourceExtensions →
      splitExtension? filename exts = splitExtension? filename sourceExtensions := by
  refine ⟨fun base => splitExtension?_eq_some_iff fun e => Iff.rfl, ?_, ?_⟩
  · intro e he e' he' h h'
    exact eq_of_carries he he' h h'
  · intro exts hperm
    refine Option.ext fun base => ?_
    rw [splitExtension?_eq_some_iff fun e => hperm.mem_iff,
      splitExtension?_eq_some_iff fun e => Iff.rfl]

/-- The base of a file name ends in a capital sigma and begins with a letter that has two characters
in lowercase. It is left as it is when the extension is cut off, from whichever end the extensions
are tried. -/
theorem splitExtension?_exact_sigma :
    sourceExtensions.reverse.Perm sourceExtensions ∧
      splitExtension? "İΣ.HpP" sourceExtensions.reverse = some "İΣ" ∧
      carries "hpp" "İΣ.HpP" = true ∧
      ∀ e ∈ sourceExtensions, carries e "İΣ.HpP" = true → e = "hpp" := by
  obtain ⟨hsplit, hunique, horder⟩ := splitExtension?_exact "İΣ.HpP"
  have hperm : sourceExtensions.reverse.Perm sourceExtensions := List.reverse_perm _
  have hmem : "hpp" ∈ sourceExtensions := by decide
  have hcarries : carries "hpp" "İΣ.HpP" = true := by decide +kernel
  refine ⟨hperm, ?_, hcarries, fun e he h => hunique e he "hpp" hmem h hcarries⟩
  rw [horder _ hperm, hsplit]
  exact ⟨"HpP", by decide, "hpp", hmem, by decide⟩

end Sketchbook
