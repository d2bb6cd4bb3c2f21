/-! Powers of two and of ten: the scales of binary and of decimal numbers. -/
namespace Listing.Number

abbrev twoTo (n : Nat) : Nat := Nat.pow 2 n
abbrev tenTo (n : Nat) : Nat := Nat.pow 10 n

theorem twoTo_pos (n : Nat) : 0 < twoTo n := Nat.pow_pos (by decide)

theorem twoTo_succ (n : Nat) : twoTo (n + 1) = 2 * twoTo n := Nat.mul_comm _ _
theorem tenTo_succ (n : Nat) : tenTo (n + 1) = 10 * tenTo n := Nat.mul_comm _ _

theorem twoTo_add (m n : Nat) : twoTo (m + n) = twoTo m * twoTo n := Nat.pow_add 2 m n

end Listing.Number
