import Sketchbook.Disk.Basic

/-!
# Hosts

A disk does not say in which order its folders are listed, nor how much still fits on it. Both are
left to the `Host` of a program. What is said of a program holds for every host, unless one is
named.
-/

namespace Sketchbook

/-- An order in which a disk may list the names in a folder. -/
structure ListingOrder where
  arrange : List String → List String
  perm (names : List String) : (arrange names).Perm names

namespace ListingOrder

/-- The order in which the names in a folder are kept. -/
def asKept : ListingOrder :=
  ⟨id, fun _ => .refl _⟩

/-- The names that are listed are those in the folder. -/
theorem mem_arrange (o : ListingOrder) {names : List String} {n : String} :
    n ∈ o.arrange names ↔ n ∈ names :=
  (o.perm names).mem_iff

/-- A name that is listed is one of the names in the folder. -/
theorem mem_of_arrange_eq {o : ListingOrder} {names before after : List String} {n : String}
    (h : o.arrange names = before ++ n :: after) : n ∈ names := by
  rw [← o.mem_arrange, h]
  simp

end ListingOrder

/-- How much fits on a disk: of the bytes that are written to the file at a place, so many first
ones. -/
abbrev Room := Disk → Place → List UInt8 → Nat

/-- Room for everything. -/
def Room.ample : Room :=
  fun _ _ bytes => bytes.length

/-- What the surroundings of a program decide. -/
structure Host where
  order : ListingOrder
  room : Room

/-- The host that lists names as they are kept, and has room for everything. -/
def Host.plain : Host :=
  ⟨.asKept, .ample⟩

end Sketchbook
