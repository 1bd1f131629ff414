import Sketchbook.FileName.Extension
import Sketchbook.FileName.SourceFilter
import Sketchbook.Proofs.Text.Caseless
import Sketchbook.Proofs.Text.Glob

/-!
# What the filter for source files recognises

In a name of one component the rule for an extension asks for the end of the name only, and the
last rule for its first character. So the filter and `splitExtension?` recognise the same names,
but for those that begin with a dot and for one line break that the rules let pass at the end.
Main statements: `SourceFilter.scope_eq_some_iff`, `SourceFilter.verdict_ofExtensions` and
`SourceFilter.admits_ofExtensions_iff`.
-/

namespace Sketchbook

/-- The characters that an extension cannot have if it is to stand for itself in a rule. -/
def specialChars : List Char :=
  ['*', '?', '[', ']', '\\', '/']

/-- An extension that stands for itself in a rule: it has no special character, and no blank at
its end, where it would be cut off. -/
structure IsPlainExtension (e : String) : Prop where
  noSpecial : ∀ c ∈ e.toList, c ∉ specialChars
  noBlankEnd : ∀ c ∈ e.toList.getLast?, isBlank c = false

/-- Whether an extension stands for itself in a rule. -/
def isPlainExtension (e : String) : Bool :=
  e.toList.all (fun c => !specialChars.contains c) && e.toList.getLast?.all fun c => !isBlank c

theorem isPlainExtension_iff {e : String} : isPlainExtension e = true ↔ IsPlainExtension e := by
  simp only [isPlainExtension, Bool.and_eq_true, List.all_eq_true, Option.all_eq_true,
    Bool.not_eq_true', List.contains_eq_mem, decide_eq_false_iff_not]
  exact ⟨fun h => ⟨h.1, h.2⟩, fun h => ⟨h.noSpecial, h.noBlankEnd⟩⟩

instance (e : String) : Decidable (IsPlainExtension e) :=
  decidable_of_iff (isPlainExtension e = true) isPlainExtension_iff

namespace IsPlainExtension

variable {e : String}

/-- No special character can come from the lowercase of another one, so there is none in the mark
either. -/
theorem not_mem_extensionMark (h : IsPlainExtension e) {c : Char} (hc : c ∈ specialChars) :
    c ∉ extensionMark e := by
  have hall : specialChars.all (fun d => d != '.' && isCaseless d) = true := by decide
  obtain ⟨hdot, hcaseless⟩ : c ≠ '.' ∧ isCaseless c = true := by
    simpa using List.all_eq_true.mp hall c hc
  intro hmem
  rcases List.mem_cons.mp hmem with rfl | hmem
  · exact hdot rfl
  · exact h.noSpecial c ((mem_lowerFrom_iff hcaseless).mp hmem) hc

/-- The mark does not end in a blank. -/
theorem isBlank_of_mem_getLast? (h : IsPlainExtension e) :
    ∀ c ∈ (extensionMark e).getLast?, isBlank c = false := by
  intro c hc
  refine Bool.eq_false_iff.mpr fun hblank => ?_
  have hcaseless : isCaseless c = true := by rw [isCaseless, hblank, Bool.or_true]
  obtain ⟨front, hfront⟩ := List.getLast?_eq_some_iff.mp hc
  cases front with
  | nil =>
    -- the extension is empty, and the mark is a dot
    obtain ⟨rfl, -⟩ := List.cons.inj hfront
    exact absurd hblank (by decide)
  | cons d front =>
    obtain ⟨-, hlower⟩ := List.cons.inj hfront
    obtain ⟨g, hg⟩ := exists_append_of_lowerFrom_eq_append hcaseless hlower
    have hend : isBlank c = false := h.noBlankEnd c (by rw [hg, List.getLast?_concat]; rfl)
    rw [hblank] at hend
    cases hend

end IsPlainExtension

/-- A text that does not end in a blank is kept when the blanks at its end are cut off. -/
theorem trimEnd_eq_self {cs : List Char} (h : ∀ c ∈ cs.getLast?, isBlank c = false) :
    trimEnd cs = cs := by
  have hdrop : cs.reverse.dropWhile isBlank = cs.reverse := by
    cases hreverse : cs.reverse with
    | nil => rfl
    | cons c rest =>
      have hlast : cs.getLast? = some c := by rw [← List.head?_reverse, hreverse, List.head?_cons]
      rw [List.dropWhile_cons_of_neg (by rw [h c hlast]; exact Bool.false_ne_true)]
  rw [trimEnd, hdrop, List.reverse_reverse]

/-- A file name is recognised if its lowercase ends in the mark of an extension. -/
theorem splitExtension?_isSome_iff {f : String} {exts : List String} :
    (splitExtension? f exts).isSome = true ↔
      ∃ e ∈ exts, extensionMark e <:+ lowerChars f.toList := by
  simp only [splitExtension?_isSome, List.any_eq_true, carries, List.isSuffixOf_iff_suffix]

/-- The lowercase of a text has a line break at its end if the text has. -/
theorem exists_lineBreak_iff {f : String} {p : List Char → Prop} :
    (∃ m, lowerChars f.toList = m ++ ['\n'] ∧ p m) ↔
      ∃ g, f = g ++ "\n" ∧ p (lowerChars g.toList) := by
  have hbreak : isCaseless '\n' = true := by decide
  constructor
  · rintro ⟨m, hlower, hm⟩
    obtain ⟨g, hg, rfl⟩ := (lowerFrom_eq_append_singleton_iff hbreak).mp hlower
    refine ⟨String.ofList g, String.toList_inj.mp ?_, by rwa [String.toList_ofList]⟩
    rw [hg, String.toList_append, String.toList_ofList]
    rfl
  · rintro ⟨g, rfl, hg⟩
    refine ⟨lowerChars g.toList, ?_, hg⟩
    rw [String.toList_append]
    exact lowerFrom_append_singleton hbreak g.toList

namespace SourceFilter

/-! ### Rules and names of one component -/

section OneComponent

variable {path : List Char}

/-- No component begins inside a name without slashes. -/
theorem innerOpenings_of_not_mem (h : '/' ∉ path) (empty : Bool) :
    innerOpenings empty path = List.replicate path.length false := by
  induction path generalizing empty with
  | nil => rfl
  | cons c cs ih =>
    obtain ⟨hc, hcs⟩ := not_or.mp (mt List.mem_cons.mpr h)
    have hbeq : (c == '/') = false := beq_eq_false_iff_ne.mpr (Ne.symm hc)
    rw [innerOpenings, ih hcs, hbeq]
    split
    · rfl
    · rfl

/-- A name without slashes is its only component. -/
theorem starts_of_not_mem (h : '/' ∉ path) : starts path = [path] := by
  have hclosed : ∀ n (rs : List (List Char)),
      ((List.replicate n false).zip rs).filter (·.1) = [] := by
    intro n rs
    refine List.filter_eq_nil_iff.mpr fun e he => ?_
    have hfirst := (List.mem_replicate.mp (List.of_mem_zip he).1).2
    simp [hfirst]
  obtain ⟨rest, hsuffixes⟩ : ∃ rest, Glob.suffixes path = path :: rest := by
    cases path with
    | nil => exact ⟨_, rfl⟩
    | cons c cs => exact ⟨_, rfl⟩
  rw [starts, openings, hsuffixes, innerOpenings_of_not_mem h]
  simp [hclosed]

/-- A rest without slashes means a match of the file or nothing: it is a match if at most one line
break is left. -/
theorem scopeOf_eq_some_iff (h : '/' ∉ path) {s : Scope} :
    scopeOf path = some s ↔ s = .file ∧ (path = [] ∨ path = ['\n']) := by
  unfold scopeOf
  split
  · exact absurd List.mem_cons_self h
  · simp [eq_comm]
  · simp [eq_comm]
  · next hnil hbreak =>
    constructor
    · intro hnone
      cases hnone
    rintro ⟨-, hpath | hpath⟩
    · exact absurd hpath hnil
    · exact absurd hpath hbreak

/-- A pattern applies to a name without slashes if it matches the name, or all of it but one line
break at the end, and then as to a file. -/
theorem scope_eq_some_iff (h : '/' ∉ path) {pattern : Glob} {s : Scope} :
    scope pattern path = some s ↔ s = .file ∧
      (Glob.Matches pattern path ∨ ∃ m, path = m ++ ['\n'] ∧ Glob.Matches pattern m) := by
  have hrest : ∀ {r : List Char}, r ∈ Glob.rests pattern path → ∀ {t : Scope},
      (scopeOf r = some t ↔ t = .file ∧ (r = [] ∨ r = ['\n'])) := by
    intro r hr t
    obtain ⟨m, rfl, -⟩ := Glob.mem_rests.mp hr
    exact scopeOf_eq_some_iff fun hslash => h (List.mem_append_right m hslash)
  rw [scope_eq, starts_of_not_mem h, List.findSome?_singleton]
  constructor
  · intro hscope
    obtain ⟨r, hr, hs⟩ := List.exists_of_findSome?_eq_some hscope
    obtain ⟨rfl, hleft⟩ := (hrest hr).mp hs
    obtain ⟨m, hpath, hmatch⟩ := Glob.mem_rests.mp hr
    refine ⟨rfl, ?_⟩
    rcases hleft with rfl | rfl
    · rw [List.append_nil] at hpath
      exact Or.inl (hpath ▸ hmatch)
    · exact Or.inr ⟨m, hpath, hmatch⟩
  · -- what is found first may be another rest than `r`, but in one component all mean the same
    rintro ⟨rfl, hmatch⟩
    obtain ⟨r, hr, hleft⟩ : ∃ r ∈ Glob.rests pattern path, r = [] ∨ r = ['\n'] := by
      rcases hmatch with hmatch | ⟨m, hpath, hmatch⟩
      · exact ⟨[], Glob.mem_rests.mpr ⟨path, (List.append_nil path).symm, hmatch⟩, Or.inl rfl⟩
      · exact ⟨['\n'], Glob.mem_rests.mpr ⟨m, hpath, hmatch⟩, Or.inr rfl⟩
    have hsome : ((Glob.rests pattern path).findSome? scopeOf).isSome = true := by
      rw [List.findSome?_isSome_iff]
      exact ⟨r, hr, by rw [(hrest hr).mpr ⟨rfl, hleft⟩]; rfl⟩
    obtain ⟨t, ht⟩ := Option.isSome_iff_exists.mp hsome
    obtain ⟨r', hr', ht'⟩ := List.exists_of_findSome?_eq_some ht
    rw [ht, ((hrest hr').mp ht').1]

/-- A name without slashes is not shortened in front. -/
theorem normalizePath_of_not_mem (h : '/' ∉ path) : normalizePath path = path := by
  unfold normalizePath
  split
  · exact absurd List.mem_cons_self h
  · exact absurd (List.mem_cons_of_mem _ List.mem_cons_self) h
  · rfl

/-- The last rule applies to the names that begin with a dot. -/
theorem scope_dotRule_eq_some_iff (h : '/' ∉ path) {s : Scope} :
    scope dotRule.pattern path = some s ↔ s = .file ∧ path.head? = some '.' := by
  rw [scope_eq_some_iff h, dotRule, Glob.matches_literal_run_iff h]
  refine and_congr_right fun _ => ⟨?_, Or.inl⟩
  rintro (hhead | ⟨m, rfl, hmatch⟩)
  · exact hhead
  · have hm : '/' ∉ m := fun hslash => h (List.mem_append_left _ hslash)
    rw [List.head?_append, (Glob.matches_literal_run_iff hm).mp hmatch]
    rfl

end OneComponent

/-! ### The rules for extensions -/

/-- Whether the rule for an extension applies to a path in the given way. -/
def applies (s : Scope) (path : List Char) (extension : String) : Bool :=
  (extensionRule? extension).any fun r => scope r.pattern path == some s

theorem applies_iff {s : Scope} {path : List Char} {e : String} :
    applies s path e = true ↔ ∃ r, extensionRule? e = some r ∧ scope r.pattern path = some s := by
  simp [applies, Option.any_eq_true]

/-- The rule for an extension admits. -/
theorem keep_of_extensionRule? {e : String} {r : FilterRule} (h : extensionRule? e = some r) :
    r.keep = true := by
  obtain ⟨g, -, rfl⟩ := Option.map_eq_some_iff.mp h
  rfl

/-- The rule that excludes names with a dot in front goes first, and where it does not apply any
of the rules for the extensions is enough. -/
theorem verdict_ofExtensions (exts : List String) (s : Scope) (path : List Char) :
    verdict (ofExtensions exts) s path =
      if scope dotRule.pattern path = some s then some false
      else if exts.any (applies s path) then some true else none := by
  rw [verdict, ofExtensions, List.reverse_append, List.reverse_singleton, List.singleton_append,
    List.find?_cons]
  by_cases hdot : scope dotRule.pattern path = some s
  · rw [if_pos hdot, beq_iff_eq.mpr hdot]
    rfl
  · rw [if_neg hdot, beq_eq_false_iff_ne.mpr hdot, ← List.filterMap_reverse, List.find?_filterMap]
    change (((exts.reverse.find? (applies s path)).bind extensionRule?).map (·.keep)) = _
    cases hfind : exts.reverse.find? (applies s path) with
    | none =>
      have hany : exts.any (applies s path) = false := by
        refine List.any_eq_false.mpr fun e he => ?_
        exact List.find?_eq_none.mp hfind e (List.mem_reverse.mpr he)
      rw [hany]
      rfl
    | some e =>
      have happlies : applies s path e = true := List.find?_some hfind
      obtain ⟨r, hrule, -⟩ := applies_iff.mp happlies
      have hany : exts.any (applies s path) = true :=
        List.any_eq_true.mpr ⟨e, List.mem_reverse.mp (List.mem_of_find?_eq_some hfind), happlies⟩
      rw [hany, Option.bind_some, hrule, Option.map_some, keep_of_extensionRule? hrule]
      rfl

/-- The order of the extensions plays no part, nor does how often each is given. -/
theorem admits_ofExtensions_congr {exts exts' : List String} (h : ∀ e, e ∈ exts' ↔ e ∈ exts)
    (f : String) : (ofExtensions exts').admits f = (ofExtensions exts).admits f := by
  have hany : ∀ s path, exts'.any (applies s path) = exts.any (applies s path) := by
    intro s path
    rw [Bool.eq_iff_iff, List.any_eq_true, List.any_eq_true]
    exact exists_congr fun e => and_congr_left fun _ => h e
  simp only [admits, admitsLowered, verdict_ofExtensions, hany]

/-! ### Plain extensions -/

/-- The rule for a plain extension asks for its mark at the end. -/
theorem extensionRule?_of_plain {e : String} (h : IsPlainExtension e) :
    extensionRule? e = some ⟨true, Glob.ending (extensionMark e)⟩ := by
  have htrim : trimEnd ('*' :: extensionMark e) = '*' :: extensionMark e := by
    refine trimEnd_eq_self fun c hc => h.isBlank_of_mem_getLast? c ?_
    rwa [extensionMark, List.getLast?_cons_cons] at hc
  have hliteral : ∀ c ∈ extensionMark e, Glob.isLiteral c = true := by
    intro c hc
    simp only [Glob.isLiteral, Bool.and_eq_true, bne_iff_ne]
    refine ⟨⟨?_, ?_⟩, ?_⟩
    all_goals
      rintro rfl
      exact h.not_mem_extensionMark (by decide) hc
  rw [extensionRule?, ← extensionMark, htrim, Glob.parse?_ending hliteral, Option.map_some]

/-- In a name of one component the rule for a plain extension asks for the mark at the end of the
name, or in front of a line break at its end. -/
theorem applies_iff_of_plain {e : String} (h : IsPlainExtension e) {s : Scope}
    {path : List Char} (hpath : '/' ∉ path) : applies s path e = true ↔ s = .file ∧
      (extensionMark e <:+ path ∨ ∃ m, path = m ++ ['\n'] ∧ extensionMark e <:+ m) := by
  have hinner : ∀ {m}, path = m ++ ['\n'] →
      (Glob.Matches (Glob.ending (extensionMark e)) m ↔ extensionMark e <:+ m) := by
    rintro m rfl
    exact Glob.matches_ending_iff fun hslash => hpath (List.mem_append_left _ hslash)
  simp only [applies_iff, extensionRule?_of_plain h, Option.some.injEq, exists_eq_left',
    scope_eq_some_iff hpath, Glob.matches_ending_iff hpath]
  exact and_congr_right fun _ => or_congr_right (exists_congr fun m => and_congr_right hinner)

/-- Nothing is wrong with the rules for plain extensions. -/
theorem build_of_plain {exts : List String} (h : ∀ e ∈ exts, IsPlainExtension e) :
    build exts = .ok (ofExtensions exts) := by
  have hproblem : (ofExtensions exts).findSome? FilterRule.problem? = none := by
    refine List.findSome?_eq_none_iff.mpr fun r hr => ?_
    rcases List.mem_append.mp hr with hr | hr
    · obtain ⟨e, he, hrule⟩ := List.mem_filterMap.mp hr
      rw [extensionRule?_of_plain (h e he)] at hrule
      obtain rfl := Option.some.inj hrule
      rw [FilterRule.problem?, Glob.reversedRange?_ending]
      rfl
    · rw [List.mem_singleton.mp hr]
      rfl
  rw [build, hproblem]

/-- In a name of one component a rule for a plain extension applies just if `splitExtension?`
recognises the name, as it is or without a line break at the end. -/
theorem any_applies_iff {exts : List String} (hexts : ∀ e ∈ exts, IsPlainExtension e)
    {f : String} (hpath : '/' ∉ lowerChars f.toList) {s : Scope} :
    exts.any (applies s (lowerChars f.toList)) = true ↔ s = .file ∧
      ((splitExtension? f exts).isSome = true ∨
        ∃ g, f = g ++ "\n" ∧ (splitExtension? g exts).isSome = true) := by
  have hbreak : (∃ g, f = g ++ "\n" ∧ (splitExtension? g exts).isSome = true) ↔
      ∃ m, lowerChars f.toList = m ++ ['\n'] ∧ ∃ e ∈ exts, extensionMark e <:+ m := by
    simp only [splitExtension?_isSome_iff]
    exact (exists_lineBreak_iff (p := fun m => ∃ e ∈ exts, extensionMark e <:+ m)).symm
  rw [List.any_eq_true, hbreak, splitExtension?_isSome_iff]
  constructor
  · rintro ⟨e, he, happlies⟩
    obtain ⟨rfl, hend⟩ := (applies_iff_of_plain (hexts e he) hpath).mp happlies
    refine ⟨rfl, ?_⟩
    rcases hend with hend | ⟨m, hm, hend⟩
    · exact Or.inl ⟨e, he, hend⟩
    · exact Or.inr ⟨m, hm, e, he, hend⟩
  · rintro ⟨rfl, ⟨e, he, hend⟩ | ⟨m, hm, e, he, hend⟩⟩
    · exact ⟨e, he, (applies_iff_of_plain (hexts e he) hpath).mpr ⟨rfl, Or.inl hend⟩⟩
    · exact ⟨e, he, (applies_iff_of_plain (hexts e he) hpath).mpr ⟨rfl, Or.inr ⟨m, hm, hend⟩⟩⟩

/-- A filter for plain extensions admits those names of one component that `splitExtension?`
recognises, as they are or without a line break at the end, and that begin with no dot. -/
theorem admits_ofExtensions_iff {exts : List String} (hexts : ∀ e ∈ exts, IsPlainExtension e)
    {f : String} (hf : '/' ∉ f.toList) :
    (ofExtensions exts).admits f = true ↔ f.toList.head? ≠ some '.' ∧
      ((splitExtension? f exts).isSome = true ∨
        ∃ g, f = g ++ "\n" ∧ (splitExtension? g exts).isSome = true) := by
  have hpath : '/' ∉ lowerChars f.toList := mt (mem_lowerFrom_iff (by decide)).mp hf
  have hdot : ∀ s, scope dotRule.pattern (lowerChars f.toList) = some s ↔
      s = .file ∧ f.toList.head? = some '.' := by
    intro s
    rw [scope_dotRule_eq_some_iff hpath]
    exact and_congr_right fun _ => head?_lowerFrom_eq_some_iff (by decide)
  have hfolder : verdict (ofExtensions exts) .folder (lowerChars f.toList) = none := by
    have hnone : ∀ {q : Prop}, ¬(Scope.folder = .file ∧ q) := by
      rintro q ⟨hscope, -⟩
      cases hscope
    rw [verdict_ofExtensions, if_neg (mt (hdot _).mp hnone),
      if_neg (mt (any_applies_iff hexts hpath).mp hnone)]
  simp only [admits, admitsLowered, normalizePath_of_not_mem hpath, hfolder]
  rw [verdict_ofExtensions]
  by_cases hhead : f.toList.head? = some '.'
  · rw [if_pos ((hdot _).mpr ⟨rfl, hhead⟩)]
    exact ⟨fun h => absurd h Bool.false_ne_true, fun h => absurd hhead h.1⟩
  · rw [if_neg fun h => hhead ((hdot _).mp h).2]
    by_cases hany : exts.any (applies .file (lowerChars f.toList)) = true
    · rw [if_pos hany]
      exact ⟨fun _ => ⟨hhead, ((any_applies_iff hexts hpath).mp hany).2⟩, fun _ => rfl⟩
    · rw [if_neg hany]
      refine ⟨fun h => absurd h Bool.false_ne_true, fun h => ?_⟩
      exact absurd ((any_applies_iff hexts hpath).mpr ⟨rfl, h.2⟩) hany

/-- The filter for the tabs of a sketch. -/
theorem isSourceName_iff {f : String} (hf : '/' ∉ f.toList) :
    isSourceName f = true ↔ f.toList.head? ≠ some '.' ∧
      ((splitExtension? f sourceExtensions).isSome = true ∨
        ∃ g, f = g ++ "\n" ∧ (splitExtension? g sourceExtensions).isSome = true) :=
  admits_ofExtensions_iff (by decide +kernel) hf

/-- Plain extensions always make a filter. It admits those names of one component that
`splitExtension?` recognises, as they are or without a line break at the end, and that begin with
no dot. Neither the order of the extensions nor how often each is given changes its answers. -/
theorem admits_build_iff {exts : List String} (hexts : ∀ e ∈ exts, IsPlainExtension e) :
    ∃ rules, build exts = .ok rules ∧
      (∀ f : String, '/' ∉ f.toList →
        (rules.admits f = true ↔ f.toList.head? ≠ some '.' ∧
          ((splitExtension? f exts).isSome = true ∨
            ∃ g, f = g ++ "\n" ∧ (splitExtension? g exts).isSome = true))) ∧
      ∀ exts' : List String, (∀ e, e ∈ exts' ↔ e ∈ exts) →
        ∃ rules', build exts' = .ok rules' ∧ ∀ f, rules'.admits f = rules.admits f := by
  refine ⟨ofExtensions exts, build_of_plain hexts, fun f hf => admits_ofExtensions_iff hexts hf, ?_⟩
  intro exts' hsame
  have hexts' : ∀ e ∈ exts', IsPlainExtension e := fun e he => hexts e ((hsame e).mp he)
  exact ⟨ofExtensions exts', build_of_plain hexts', admits_ofExtensions_congr hsame⟩

/-- A line break at the end of a name is let pass, a dot in front is not, and giving the
extensions in another order, one of them twice, makes no difference. -/
theorem admits_build_lineBreak :
    (∀ e ∈ ["ino", "Σ"], IsPlainExtension e) ∧
      ∃ rules, build ["ino", "Σ"] = .ok rules ∧
        rules.admits "a.INO\n" = true ∧ rules.admits ".a.ino" = false ∧
        ∃ rules', build ["Σ", "ino", "Σ"] = .ok rules' ∧ rules'.admits "a.INO\n" = true := by
  have hexts : ∀ e ∈ ["ino", "Σ"], IsPlainExtension e := by decide +kernel
  obtain ⟨rules, hbuild, hadmits, hsame⟩ := admits_build_iff hexts
  have hbreak : rules.admits "a.INO\n" = true :=
    (hadmits _ (by decide)).mpr ⟨by decide, Or.inr ⟨"a.INO", rfl, by decide +kernel⟩⟩
  have hdot : rules.admits ".a.ino" = false :=
    Bool.eq_false_iff.mpr fun h => ((hadmits _ (by decide)).mp h).1 (by decide)
  obtain ⟨rules', hbuild', hanswers⟩ := hsame ["Σ", "ino", "Σ"] (by simp)
  exact ⟨hexts, rules, hbuild, hbreak, hdot, rules', hbuild', (hanswers _).trans hbreak⟩

end SourceFilter

end Sketchbook
