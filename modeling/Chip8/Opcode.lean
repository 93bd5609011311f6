import Chip8.Address

/-!
# Opcodes

An opcode is a sixteen-bit word of four hexadecimal digits. The first digit is its family; the
other three are read as operands in overlapping ways: two register numbers and a digit, a register
number and a byte, or one twelve-bit address.

The digits are given as quotients and remainders, so each has its plain arithmetic law, and the
words assembled from digits are the same arithmetic read the other way.
-/

namespace Chip8

/-- A sixteen-bit word that stands for an instruction. -/
abbrev Opcode := UInt16

abbrev Digit := Fin 16

/-- The digit zero, written where a digit is ignored. -/
def Digit.zero : Digit := ⟨0, by decide⟩

namespace Opcode

/-- The opcode whose first byte in memory is `high` and whose second byte is `low`. -/
def ofBytes (high low : UInt8) : Opcode :=
  UInt16.ofNat (high.toNat * 256 + low.toNat)

/-- The first digit, which selects the family of instructions. -/
def family (opcode : Opcode) : Nat :=
  opcode.toNat / 4096

/-- The second digit, a register number. -/
def x (opcode : Opcode) : Digit :=
  ⟨opcode.toNat / 256 % 16, Nat.mod_lt _ (by decide)⟩

/-- The third digit, a register number. -/
def y (opcode : Opcode) : Digit :=
  ⟨opcode.toNat / 16 % 16, Nat.mod_lt _ (by decide)⟩

def n (opcode : Opcode) : Digit :=
  ⟨opcode.toNat % 16, Nat.mod_lt _ (by decide)⟩

/-- The last two digits as a byte. -/
def kk (opcode : Opcode) : UInt8 :=
  UInt8.ofNat opcode.toNat

/-- The last three digits as an address. -/
def nnn (opcode : Opcode) : Address :=
  ⟨opcode.toNat % Memory.size, Nat.mod_lt _ (by decide)⟩

/-- The opcode of a family with two register numbers and a last digit. -/
def ofDigits (family : Nat) (x y : Digit) (n : Nat) : Opcode :=
  UInt16.ofNat (family * 4096 + x.val * 256 + y.val * 16 + n)

/-- The opcode of a family with a register number and a byte. -/
def ofByte (family : Nat) (x : Digit) (kk : UInt8) : Opcode :=
  UInt16.ofNat (family * 4096 + x.val * 256 + kk.toNat)

def ofAddress (family : Nat) (nnn : Address) : Opcode :=
  UInt16.ofNat (family * 4096 + nnn.val)

section Arithmetic

variable (opcode : Opcode)

theorem family_lt : opcode.family < 16 := by
  have bound := opcode.toNat_lt
  simp only [family]
  omega

theorem toNat_kk : opcode.kk.toNat = opcode.toNat % 256 := by
  simp [kk]

theorem toNat_ofBytes (high low : UInt8) :
    (ofBytes high low).toNat = high.toNat * 256 + low.toNat := by
  have highBound := high.toNat_lt
  have lowBound := low.toNat_lt
  simp only [ofBytes, UInt16.toNat_ofNat']
  omega

theorem toNat_ofDigits {family n : Nat} (x y : Digit) (digit : family < 16) (last : n < 16) :
    (ofDigits family x y n).toNat = family * 4096 + x.val * 256 + y.val * 16 + n := by
  simp only [ofDigits, UInt16.toNat_ofNat']
  omega

theorem toNat_ofByte {family : Nat} (x : Digit) (kk : UInt8) (digit : family < 16) :
    (ofByte family x kk).toNat = family * 4096 + x.val * 256 + kk.toNat := by
  have bound := kk.toNat_lt
  simp only [ofByte, UInt16.toNat_ofNat']
  omega

theorem toNat_ofAddress {family : Nat} (nnn : Address) (digit : family < 16) :
    (ofAddress family nnn).toNat = family * 4096 + nnn.val := by
  have bound := nnn.isLt
  simp only [Memory.size] at bound
  simp only [ofAddress, UInt16.toNat_ofNat']
  omega

end Arithmetic

section Reading

variable {digit last : Nat} (x y : Digit) (kk : UInt8) (nnn : Address)

@[simp] theorem family_ofDigits (first : digit < 16) (small : last < 16) :
    (ofDigits digit x y last).family = digit := by
  rw [family, toNat_ofDigits x y first small]
  omega

@[simp] theorem x_ofDigits (first : digit < 16) (small : last < 16) :
    (ofDigits digit x y last).x = x := by
  apply Fin.ext
  simp only [Opcode.x, toNat_ofDigits x y first small]
  omega

@[simp] theorem y_ofDigits (first : digit < 16) (small : last < 16) :
    (ofDigits digit x y last).y = y := by
  apply Fin.ext
  simp only [Opcode.y, toNat_ofDigits x y first small]
  omega

@[simp] theorem val_n_ofDigits (first : digit < 16) (small : last < 16) :
    (ofDigits digit x y last).n.val = last := by
  simp only [Opcode.n, toNat_ofDigits x y first small]
  omega

@[simp] theorem n_ofDigits (n : Digit) (first : digit < 16) :
    (ofDigits digit x y n.val).n = n :=
  Fin.ext (val_n_ofDigits x y first n.isLt)

@[simp] theorem family_ofByte (first : digit < 16) : (ofByte digit x kk).family = digit := by
  have bound := kk.toNat_lt
  rw [family, toNat_ofByte x kk first]
  omega

@[simp] theorem x_ofByte (first : digit < 16) : (ofByte digit x kk).x = x := by
  have bound := kk.toNat_lt
  apply Fin.ext
  simp only [Opcode.x, toNat_ofByte x kk first]
  omega

@[simp] theorem kk_ofByte (first : digit < 16) : (ofByte digit x kk).kk = kk := by
  have bound := kk.toNat_lt
  apply UInt8.toNat_inj.mp
  rw [toNat_kk, toNat_ofByte x kk first]
  omega

@[simp] theorem family_ofAddress (first : digit < 16) : (ofAddress digit nnn).family = digit := by
  have bound := nnn.isLt
  simp only [Memory.size] at bound
  rw [family, toNat_ofAddress nnn first]
  omega

@[simp] theorem nnn_ofAddress (first : digit < 16) : (ofAddress digit nnn).nnn = nnn := by
  have bound := nnn.isLt
  apply Fin.ext
  simp only [Opcode.nnn, Memory.size, toNat_ofAddress nnn first] at bound ⊢
  omega

end Reading

section Writing

variable (opcode : Opcode)

theorem ofDigits_eta : ofDigits opcode.family opcode.x opcode.y opcode.n.val = opcode := by
  apply UInt16.toNat_inj.mp
  rw [toNat_ofDigits _ _ opcode.family_lt opcode.n.isLt]
  simp only [family, x, y, n]
  omega

theorem ofByte_eta : ofByte opcode.family opcode.x opcode.kk = opcode := by
  apply UInt16.toNat_inj.mp
  rw [toNat_ofByte _ _ opcode.family_lt, toNat_kk]
  simp only [family, x]
  omega

theorem ofAddress_eta : ofAddress opcode.family opcode.nnn = opcode := by
  apply UInt16.toNat_inj.mp
  rw [toNat_ofAddress _ opcode.family_lt]
  simp only [family, nnn, Memory.size]
  omega

end Writing

end Opcode

end Chip8
