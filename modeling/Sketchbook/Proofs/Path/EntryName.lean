import Sketchbook.Disk.Walk

/-!
# Names of entries

A text that can be the name of an entry in a folder stands for itself wherever a path is read:
joined to a folder it names the entry (`Path.join_of_isEntryName`), and as the target of a link
it is one step down (`linkSteps_of_isEntryName`).
-/

namespace Sketchbook

/-- The text can be the name of an entry: it has no slash, is not empty, and is neither of the
names that stand for the folder itself and the folder above. -/
structure IsEntryName (n : String) : Prop where
  noSlash : '/' ∉ n.toList
  ne_empty : n ≠ ""
  ne_dot : n ≠ "."
  ne_dots : n ≠ ".."

/-! ### The steps that names stand for -/

/-- A name stands for a step down to the entry of this name, unless it is one of the two that stand
for the folder itself and the folder above. -/
theorem Step.ofName_cases (n : String) :
    (n = "." ∧ Step.ofName n = .here) ∨ (n = ".." ∧ Step.ofName n = .up) ∨
      Step.ofName n = .down n := by
  unfold Step.ofName
  split
  · next hdot => exact .inl ⟨hdot, rfl⟩
  · split
    · next hdots => exact .inr (.inl ⟨hdots, rfl⟩)
    · exact .inr (.inr rfl)

/-- A name that begins with more than dots is one step down. -/
theorem Step.ofName_of_prefix {source n : String} (hdots : ¬ source.toList <+: ['.', '.'])
    (hbegins : source.toList <+: n.toList) : Step.ofName n = .down n := by
  rcases Step.ofName_cases n with ⟨rfl, -⟩ | ⟨rfl, -⟩ | hdown
  · exact absurd (hbegins.trans ⟨['.'], rfl⟩) hdots
  · exact absurd hbegins hdots
  · exact hdown

/-- A name that is one step down has more than dots. -/
theorem Step.not_prefix_dots {n : String} (hne : n ≠ "") (h : Step.ofName n = .down n) :
    ¬ n.toList <+: ['.', '.'] := by
  intro hdots
  rcases List.prefix_cons_iff.mp hdots with hnil | ⟨rest, hrest, hdot⟩
  · exact hne (String.toList_injective hnil)
  · rcases List.prefix_cons_iff.mp hdot with rfl | ⟨rest, rfl, hend⟩
    · obtain rfl : n = "." := String.toList_injective hrest
      cases h
    · obtain rfl := List.prefix_nil.mp hend
      obtain rfl : n = ".." := String.toList_injective hrest
      cases h

/-- A path with names is that of an entry of the folder above. -/
theorem Path.child_parent_name {p : Path} (h : p.parts ≠ []) : p.parent.child p.name = p := by
  have hlast : p.name = p.parts.getLast h := by
    simp [name, List.getLast?_eq_some_getLast h]
  simp [parent, child, hlast, List.dropLast_concat_getLast h]

/-! ### Names read as paths and as link targets -/

/-- A text without the separator is a single piece. -/
theorem splitAtEach_of_not_mem {sep : Char} {cs : List Char} (h : sep ∉ cs) :
    splitAtEach sep cs = [cs] := by
  induction cs with
  | nil => rfl
  | cons c cs ih =>
    obtain ⟨hc, hcs⟩ := not_or.mp (mt List.mem_cons.mpr h)
    have hbeq : (c == sep) = false := beq_eq_false_iff_ne.mpr (Ne.symm hc)
    rw [splitAtEach, ih hcs]
    simp [hbeq]

namespace IsEntryName

variable {n : String}

/-- A text without slashes that begins with no dot can be the name of an entry. -/
theorem of_toList {c : Char} {cs : List Char} (h : n.toList = c :: cs) (hc : c ≠ '.')
    (hslash : '/' ∉ n.toList) : IsEntryName n where
  noSlash := hslash
  ne_empty := by
    rintro rfl
    cases h
  ne_dot := by
    rintro rfl
    exact hc (List.cons.inj h).1.symm
  ne_dots := by
    rintro rfl
    exact hc (List.cons.inj h).1.symm

/-- A name does not begin with a slash. -/
theorem head?_ne_slash (h : IsEntryName n) : n.toList.head? ≠ some '/' := by
  intro hhead
  exact h.noSlash (List.mem_of_head? hhead)

/-- A name does not end with a slash. -/
theorem getLast?_ne_slash (h : IsEntryName n) : n.toList.getLast? ≠ some '/' := by
  intro hlast
  exact h.noSlash (List.mem_of_getLast? hlast)

/-- A name is one step down. -/
theorem ofName_eq (h : IsEntryName n) : Step.ofName n = .down n := by
  rw [Step.ofName, if_neg h.ne_dot, if_neg h.ne_dots]

end IsEntryName

/-- A text that does not begin with a slash is a relative path. -/
theorem Path.readAnchor_of_head?_ne {cs : List Char} (h : cs.head? ≠ some '/') :
    readAnchor cs = .current := by
  unfold readAnchor
  split <;> simp_all

/-- The path that a name stands for has this name only. -/
theorem Path.ofString_of_isEntryName {n : String} (h : IsEntryName n) :
    Path.ofString n = ⟨.current, [n]⟩ := by
  have hanchor : readAnchor n.toList = .current := readAnchor_of_head?_ne h.head?_ne_slash
  have hparts : readParts n.toList = [n] := by
    simp [readParts, splitAtEach_of_not_mem h.noSlash, h.ne_empty, h.ne_dot]
  rw [Path.ofString, hanchor, hparts]

/-- A name joined to a folder names the entry of the folder. -/
theorem Path.join_of_isEntryName (p : Path) {n : String} (h : IsEntryName n) :
    p.join n = p.child n := by
  rw [Path.join, Path.ofString_of_isEntryName h]
  rfl

/-- The way to a link target that is a name is one step down. -/
theorem linkSteps_of_isEntryName {n : String} (h : IsEntryName n) : linkSteps n = [.down n] := by
  have hlast := h.getLast?_ne_slash
  simp [linkSteps, splitAtEach_of_not_mem h.noSlash, h.ne_empty, h.ne_dot, h.ne_dots, hlast,
    Step.ofName]

/-- The way to a link target that is a name starts in the folder of the link. -/
theorem linkStart_of_isEntryName (folder : Place) {n : String} (h : IsEntryName n) :
    linkStart folder n = folder := by
  rw [linkStart, if_neg h.head?_ne_slash]

end Sketchbook
