/-!
# Byte arithmetic

Sums, differences, halves and doubles of bytes, each with the flag that says what the byte alone
loses, and the decimal digits of a byte. The laws relate result and flag to the exact integers.
-/

namespace Chip8.Arithmetic

/-- The sum of two bytes, and whether there is a carry. -/
def add (left right : UInt8) : UInt8 × Bool :=
  (left + right, decide (255 < left.toNat + right.toNat))

/-- The difference of two bytes, and whether it needs no borrow. -/
def sub (left right : UInt8) : UInt8 × Bool :=
  (left - right, decide (right ≤ left))

/-- Half of a byte, and whether it was odd. -/
def half (byte : UInt8) : UInt8 × Bool :=
  (byte >>> 1, decide (byte.toNat % 2 = 1))

/-- Twice a byte, and whether there is a carry. -/
def double (byte : UInt8) : UInt8 × Bool :=
  (byte <<< 1, decide (128 ≤ byte.toNat))

/-- The hundreds, the tens and the units of a byte. -/
def decimalDigits (byte : UInt8) : List UInt8 :=
  [byte / 100, byte % 100 / 10, byte % 10]

theorem toNat_add (left right : UInt8) :
    (add left right).1.toNat + 256 * (add left right).2.toNat = left.toNat + right.toNat := by
  have leftBound := left.toNat_lt
  have rightBound := right.toNat_lt
  simp only [add, UInt8.toNat_add]
  by_cases carry : 255 < left.toNat + right.toNat <;> simp [carry] <;> omega

theorem toNat_sub (left right : UInt8) :
    (sub left right).1.toNat + right.toNat + 256 * (sub left right).2.toNat =
      left.toNat + 256 := by
  have leftBound := left.toNat_lt
  have rightBound := right.toNat_lt
  simp only [sub, UInt8.toNat_sub, UInt8.le_iff_toNat_le]
  by_cases enough : right.toNat ≤ left.toNat <;> simp [enough] <;> omega

theorem toNat_half (byte : UInt8) :
    byte.toNat = 2 * (half byte).1.toNat + (half byte).2.toNat := by
  simp only [half, UInt8.toNat_shiftRight]
  by_cases odd : byte.toNat % 2 = 1 <;> simp [odd, Nat.shiftRight_eq_div_pow] <;> omega

theorem toNat_double (byte : UInt8) :
    2 * byte.toNat = (double byte).1.toNat + 256 * (double byte).2.toNat := by
  have bound := byte.toNat_lt
  simp only [double, UInt8.toNat_shiftLeft]
  by_cases carry : 128 ≤ byte.toNat <;> simp [carry, Nat.shiftLeft_eq] <;> omega

theorem toNat_decimalDigits (byte : UInt8) :
    (decimalDigits byte).map UInt8.toNat =
      [byte.toNat / 100, byte.toNat / 10 % 10, byte.toNat % 10] := by
  simp only [decimalDigits, List.map_cons, List.map_nil, UInt8.toNat_div, UInt8.toNat_mod]
  simp
  omega

end Chip8.Arithmetic
