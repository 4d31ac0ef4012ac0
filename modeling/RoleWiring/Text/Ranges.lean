/-!
# Ranges of code points

A property of characters is a table of inclusive ranges of code points, in
ascending order. The tables themselves are the ones the Unicode standard
publishes; `inRanges` reads them.
-/

namespace RoleWiring

/-- Some range of the table holds the character. -/
def inRanges (table : List (Nat × Nat)) (c : Char) : Bool :=
  table.any fun r => r.1 ≤ c.toNat && c.toNat ≤ r.2

/-- Membership in a table is membership in one of its ranges. -/
theorem inRanges_iff {table : List (Nat × Nat)} {c : Char} :
    inRanges table c = true ↔ ∃ r ∈ table, r.1 ≤ c.toNat ∧ c.toNat ≤ r.2 := by
  simp [inRanges]

end RoleWiring
