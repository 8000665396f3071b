/-!
Machine words: the bounds of the numbers that sizes, indices and documents can hold.

Main facts:
* `wordLimit_eq`, `signedLimit_eq`, `indexLimit_eq`: the bounds as powers of two.
-/

namespace FixedArena

/-- The least number that no word of 64 bits holds. -/
def wordLimit : Nat := 18446744073709551616

/-- The least number from zero on that no signed word of 64 bits holds. -/
def signedLimit : Nat := 9223372036854775808

/-- The least number that no word of 32 bits holds. -/
def indexLimit : Nat := 4294967296

theorem wordLimit_eq : wordLimit = 1 <<< 64 := by decide

theorem signedLimit_eq : signedLimit = 1 <<< 63 := by decide

theorem indexLimit_eq : indexLimit = 1 <<< 32 := by decide

end FixedArena
