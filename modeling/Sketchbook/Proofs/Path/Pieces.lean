import Sketchbook.Disk.Resolve
import Sketchbook.Proofs.Path.EntryName

/-!
# Names put together with slashes

The names in a path that has been read hold no slash and are neither empty nor a dot
(`Path.isPathPart_of_mem_ofString`). Such names can be written with slashes between them and read
again (`Path.ofString_intercalate`), so that one more of them makes the path of an entry
(`Path.joinPieces_concat`).
-/

namespace Sketchbook

/-- The text can stand between the slashes of a path: it has none itself, and it is neither empty
nor a dot. -/
structure IsPathPart (n : String) : Prop where
  noSlash : '/' ∉ n.toList
  ne_empty : n ≠ ""
  ne_dot : n ≠ "."

/-! ### Splitting -/

variable {sep : Char} {cs : List Char}

/-- No piece between separators has one. -/
theorem not_mem_of_mem_splitAtEach {w : List Char} (h : w ∈ splitAtEach sep cs) : sep ∉ w := by
  induction cs generalizing w with
  | nil =>
    obtain rfl : w = [] := by simpa [splitAtEach] using h
    exact List.not_mem_nil
  | cons c cs ih =>
    rw [splitAtEach] at h
    split at h
    · rcases List.mem_cons.mp h with rfl | hw
      · exact List.not_mem_nil
      · exact ih hw
    · next hc =>
      have hne : sep ≠ c := fun heq => hc (by simp [heq])
      split at h
      · obtain rfl : w = [c] := by simpa using h
        simpa using hne
      · next v ws hpieces =>
        rw [hpieces] at ih
        rcases List.mem_cons.mp h with rfl | hw
        · have hv : sep ∉ v := ih (List.mem_cons_self ..)
          exact fun hmem => (List.mem_cons.mp hmem).elim hne hv
        · exact ih (List.mem_cons_of_mem _ hw)

/-- The text before the first separator is the first piece. -/
theorem splitAtEach_append {w : List Char} (h : sep ∉ w) :
    splitAtEach sep (w ++ sep :: cs) = w :: splitAtEach sep cs := by
  induction w with
  | nil => simp [splitAtEach]
  | cons c w ih =>
    obtain ⟨hc, hw⟩ := not_or.mp (mt List.mem_cons.mpr h)
    have hbeq : (c == sep) = false := beq_eq_false_iff_ne.mpr (Ne.symm hc)
    rw [List.cons_append, splitAtEach, ih hw]
    simp [hbeq]

/-- Texts without the separator are the pieces of what they make with separators between them. -/
theorem splitAtEach_intercalate {ws : List (List Char)} (hne : ws ≠ []) (h : ∀ w ∈ ws, sep ∉ w) :
    splitAtEach sep ([sep].intercalate ws) = ws := by
  induction ws with
  | nil => exact absurd rfl hne
  | cons w ws ih =>
    obtain ⟨hw, hws⟩ := List.forall_mem_cons.mp h
    cases ws with
    | nil => simpa using splitAtEach_of_not_mem hw
    | cons v ws =>
      rw [List.intercalate_cons_cons, List.append_assoc, List.singleton_append,
        splitAtEach_append hw, ih (by simp) hws]

/-- What texts make with separators between them begins as the first of them does. -/
theorem head?_intercalate {w : List Char} (hw : w ≠ []) (ws : List (List Char)) :
    ([sep].intercalate (w :: ws)).head? = w.head? := by
  cases w with
  | nil => exact absurd rfl hw
  | cons c w =>
    cases ws with
    | nil => simp
    | cons v ws => simp

namespace Path

/-! ### Reading and writing names -/

/-- The names in a path that has been read are parts of a path. -/
theorem isPathPart_of_mem_ofString {s n : String} (h : n ∈ (ofString s).parts) : IsPathPart n := by
  obtain ⟨hpiece, hkept⟩ := List.mem_filter.mp h
  obtain ⟨w, hw, rfl⟩ := List.mem_map.mp hpiece
  have hkept : String.ofList w ≠ "" ∧ String.ofList w ≠ "." := by simpa using hkept
  refine ⟨?_, hkept.1, hkept.2⟩
  rw [String.toList_ofList]
  exact not_mem_of_mem_splitAtEach hw

/-- Names written with slashes between them are read as a path with these names. -/
theorem ofString_intercalate {ns : List String} (h : ∀ n ∈ ns, IsPathPart n) :
    ofString ("/".intercalate ns) = ⟨.current, ns⟩ := by
  cases ns with
  | nil => rfl
  | cons m ns =>
    have htext : ("/".intercalate (m :: ns)).toList =
        ['/'].intercalate ((m :: ns).map String.toList) := String.toList_intercalate
    have hparts : readParts ("/".intercalate (m :: ns)).toList = m :: ns := by
      have hpieces : splitAtEach '/' (['/'].intercalate ((m :: ns).map String.toList)) =
          (m :: ns).map String.toList := by
        refine splitAtEach_intercalate (by simp) fun w hw => ?_
        obtain ⟨n, hn, rfl⟩ := List.mem_map.mp hw
        exact (h n hn).noSlash
      have hnames : ((m :: ns).map String.toList).map String.ofList = m :: ns := by simp
      rw [readParts, htext, hpieces, hnames, List.filter_eq_self]
      intro n hn
      simp [(h n hn).ne_empty, (h n hn).ne_dot]
    have hanchor : readAnchor ("/".intercalate (m :: ns)).toList = .current := by
      have hm : IsPathPart m := h m (List.mem_cons_self ..)
      rw [htext]
      refine readAnchor_of_head?_ne fun hhead => hm.noSlash (List.mem_of_head? ?_)
      rw [List.map_cons, head?_intercalate (by simpa using hm.ne_empty)] at hhead
      exact hhead
    rw [ofString, hanchor, hparts]

/-- A name more among the pieces is the name of an entry. -/
theorem joinPieces_concat (p : Path) {ns : List String} {n : String}
    (hns : ∀ m ∈ ns, IsPathPart m) (hn : IsPathPart n) :
    p.joinPieces (ns ++ [n]) = (p.joinPieces ns).child n := by
  have hall : ∀ m ∈ ns ++ [n], IsPathPart m := by
    intro m hm
    rcases List.mem_append.mp hm with hm | hm
    · exact hns m hm
    · exact List.mem_singleton.mp hm ▸ hn
  rw [joinPieces, joinPieces, join, join, ofString_intercalate hall, ofString_intercalate hns]
  simp [isAbsolute, child]

end Path

end Sketchbook
