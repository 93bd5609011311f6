import Chip8.Fault

/-!
# Keypad

Sixteen keys, each pressed or not. Keys are numbered by bytes in requests; a byte that numbers no
key is refused before the keypad is asked.
-/

namespace Chip8

/-- One of the sixteen keys. -/
abbrev Key := Fin 16

/-- The key with the number in a byte. -/
def Key.ofByte (number : UInt8) : Except Fault Key :=
  if inside : number.toNat < 16 then .ok ⟨number.toNat, inside⟩
  else .error (.invalidKey number)

theorem Key.ofByte_eq_ok_iff {number : UInt8} {key : Key} :
    ofByte number = .ok key ↔ number.toNat = key.val := by
  simp only [ofByte]
  split
  next inside => simp [Fin.ext_iff]
  next outside =>
    have other : number.toNat ≠ key.val := by omega
    simp [other]

theorem Key.ofByte_eq_error_iff {number : UInt8} {fault : Fault} :
    ofByte number = .error fault ↔ 16 ≤ number.toNat ∧ fault = .invalidKey number := by
  simp only [ofByte]
  split
  next inside => simp [Nat.not_le.mpr inside]
  next outside => simp [Nat.le_of_not_lt outside, eq_comm]

def Key.toByte (key : Key) : UInt8 :=
  UInt8.ofNat key.val

@[simp] theorem Key.toNat_toByte (key : Key) : key.toByte.toNat = key.val :=
  UInt8.toNat_ofNat_of_lt' (Nat.lt_trans key.isLt (by decide))

/-- The keys that are held down. -/
structure Keypad where
  held : Vector Bool 16
  deriving DecidableEq, Repr

namespace Keypad

def released : Keypad := ⟨Vector.replicate 16 false⟩

def isPressed (keypad : Keypad) (key : Key) : Bool :=
  keypad.held[key.val]

/-- Whether the key with the number in a byte is pressed. -/
def ask (keypad : Keypad) (number : UInt8) : Except Fault Bool :=
  (Key.ofByte number).map keypad.isPressed

def set (keypad : Keypad) (key : Key) (pressed : Bool) : Keypad :=
  ⟨keypad.held.set key.val pressed⟩

/-- The pressed key with the least number. -/
def lowest? (keypad : Keypad) : Option Key :=
  (List.finRange 16).find? keypad.isPressed

@[simp] theorem isPressed_released (key : Key) : released.isPressed key = false := by
  simp [released, isPressed]

@[simp] theorem isPressed_set (keypad : Keypad) (key other : Key) (pressed : Bool) :
    (keypad.set key pressed).isPressed other =
      if key = other then pressed else keypad.isPressed other := by
  simp [set, isPressed, Vector.getElem_set, Fin.ext_iff]

theorem ask_of_named (keypad : Keypad) {number : UInt8} {key : Key}
    (named : number.toNat = key.val) : keypad.ask number = .ok (keypad.isPressed key) := by
  rw [ask, Key.ofByte_eq_ok_iff.mpr named]
  rfl

theorem ask_of_unnamed (keypad : Keypad) {number : UInt8} (above : 16 ≤ number.toNat) :
    keypad.ask number = .error (.invalidKey number) := by
  rw [ask, Key.ofByte_eq_error_iff.mpr ⟨above, rfl⟩]
  rfl

@[ext] theorem ext {left right : Keypad}
    (same : ∀ key, left.isPressed key = right.isPressed key) : left = right := by
  cases left
  cases right
  simp only [isPressed] at same
  simp only [mk.injEq]
  exact Vector.ext fun index inside => same ⟨index, inside⟩

theorem lowest?_eq_none_iff {keypad : Keypad} :
    keypad.lowest? = none ↔ ∀ key, keypad.isPressed key = false := by
  simp [lowest?]

/-- The lowest pressed key is pressed, and no key below it is. -/
theorem lowest?_eq_some_iff {keypad : Keypad} {key : Key} :
    keypad.lowest? = some key ↔
      keypad.isPressed key = true ∧ ∀ other, other < key → keypad.isPressed other = false := by
  rw [lowest?, List.find?_eq_some_iff_getElem]
  constructor
  · rintro ⟨pressed, place, inside, found, least⟩
    refine ⟨pressed, fun other below => ?_⟩
    simp only [List.getElem_finRange, Fin.ext_iff, Fin.lt_def, Fin.val_cast] at found below
    simpa using least other.val (by omega)
  · rintro ⟨pressed, least⟩
    refine ⟨pressed, key.val, by simp, by simp, fun place below => ?_⟩
    simpa using least ⟨place, by omega⟩ (by simpa [Fin.lt_def] using below)

end Keypad

end Chip8
