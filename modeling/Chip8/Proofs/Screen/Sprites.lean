import Mathlib.Control.Monad.Basic
import Chip8.Proofs.Machine.Cycles
import Chip8.Proofs.Runs.Acts
import Chip8.Proofs.Screen.Hits

/-!
# What a cycle draws

A cycle on the instruction that draws a sprite reads its rows at the index register and its corner from
two registers, as they are before the flag is put into the flag register. So it does not matter whether
one of the two is the flag register, or whether they are the same one. `Toggles` says in terms of the
machine before the cycle which pixels change, and `Draws` what else a cycle does that draws.
-/

namespace Chip8.Machine

/-- The sprite of `n` rows at the index register, drawn at the coordinates `Vx` and `Vy`, has a set bit
that lands on a pixel. -/
def Toggles (machine : Machine) (x y : Register) (n : Digit) (across down : Nat) : Prop :=
  ∃ row < n.val, ∃ column < 8,
    across = ((machine.v x).toNat + column) % 64 ∧ down = ((machine.v y).toNat + row) % 32 ∧
      ∃ byte, machine.memory.byte? (machine.registers.index.toNat + row) = some byte ∧
        byte.toNat.testBit (7 - column) = true

/-- One of the pixels that the sprite lands on is lit. -/
def Meets (machine : Machine) (x y : Register) (n : Digit) : Prop :=
  ∃ across < 64, ∃ down < 32,
    machine.Toggles x y n across down ∧ machine.screen.pixel across down = true

/-- A cycle that draws a sprite: it changes the pixels that the sprite lands on, flags whether one of
them was lit, asks for a redraw, moves behind the instruction and leaves all else as it is. -/
structure Draws (machine : Machine) (x y : Register) (n : Digit) : Prop where
  executed : machine.cycle.result = .ok .executed
  toggled : ∀ across < 64, ∀ down < 32,
    machine.cycle.machine.screen.pixel across down ≠ machine.screen.pixel across down ↔
      machine.Toggles x y n across down
  flag_of_meets : machine.Meets x y n → machine.cycle.machine.v .flag = 1
  flag_of_apart : ¬ machine.Meets x y n → machine.cycle.machine.v .flag = 0
  others_eq : ∀ other ≠ Register.flag, machine.cycle.machine.v other = machine.v other
  redraw_eq : machine.cycle.machine.redraw = true
  pc_eq : machine.cycle.machine.pc.toNat = machine.pc.toNat + 2
  machine_eq : machine.cycle.machine = { machine with
    opcode := .ofDigits 0xD x y n.val
    pc := machine.pc + 2
    registers := machine.registers.set .flag (machine.cycle.machine.v .flag)
    screen := machine.cycle.machine.screen
    redraw := true }

/-- The sprite of `n` rows at the index register, at the coordinates `Vx` and `Vy`. -/
def placement (machine : Machine) (x y : Register) (n : Digit) : Placement where
  x := machine.v x
  y := machine.v y
  rows := machine.memory.read machine.registers.index.toNat n.val

variable {machine : Machine} {x y : Register} {n : Digit}

theorem length_rows_placement_le : (machine.placement x y n).rows.length ≤ 32 := by
  rw [placement, Memory.length_read]
  exact Nat.le_trans (Nat.le_of_lt n.isLt) (by decide)

theorem isSet_placement_iff (inside : machine.registers.index.toNat + n.val ≤ Memory.size)
    {row column : Nat} :
    (machine.placement x y n).IsSet row column ↔
      row < n.val ∧ column < 8 ∧
        ∃ byte, machine.memory.byte? (machine.registers.index.toNat + row) = some byte ∧
          byte.toNat.testBit (7 - column) = true := by
  constructor
  · intro set
    have below := set.row_lt
    rw [placement, Memory.length_read] at below
    rcases set with ⟨narrow, byte, there, bit⟩
    rw [placement, machine.memory.getElem?_read_of_inside inside below] at there
    exact ⟨below, narrow, byte, there, bit⟩
  · intro set
    rcases set with ⟨below, narrow, byte, there, bit⟩
    refine ⟨narrow, byte, ?_, bit⟩
    rw [placement, machine.memory.getElem?_read_of_inside inside below]
    exact there

theorem pixel_placement_ne_iff (inside : machine.registers.index.toNat + n.val ≤ Memory.size)
    {across down : Nat} (left : across < 64) (top : down < 32) :
    (machine.screen.place (machine.placement x y n)).screen.pixel across down ≠
        machine.screen.pixel across down ↔
      machine.Toggles x y n across down := by
  rw [Screen.pixel_place_ne_iff _ length_rows_placement_le, Nat.mod_eq_of_lt left,
    Nat.mod_eq_of_lt top]
  constructor
  · intro covered
    rcases covered with ⟨row, column, set, onLeft, onTop⟩
    rcases (isSet_placement_iff inside).mp set with ⟨below, narrow, bit⟩
    exact ⟨row, below, column, narrow, onLeft, onTop, bit⟩
  · intro toggles
    rcases toggles with ⟨row, below, column, narrow, onLeft, onTop, bit⟩
    exact ⟨row, column, (isSet_placement_iff inside).mpr ⟨below, narrow, bit⟩, onLeft, onTop⟩

theorem collision_placement_iff (inside : machine.registers.index.toNat + n.val ≤ Memory.size) :
    (machine.screen.place (machine.placement x y n)).collision = true ↔ machine.Meets x y n := by
  rw [Screen.collision_place_iff_of_fits _ length_rows_placement_le]
  constructor
  · intro crossed
    rcases crossed with ⟨row, column, set, lit⟩
    rcases (isSet_placement_iff inside).mp set with ⟨below, narrow, bit⟩
    rw [← Screen.pixel_mod] at lit
    exact ⟨_, Nat.mod_lt _ (by decide), _, Nat.mod_lt _ (by decide),
      ⟨row, below, column, narrow, rfl, rfl, bit⟩, lit⟩
  · intro meets
    rcases meets with ⟨_, _, _, _, ⟨row, below, column, narrow, rfl, rfl, bit⟩, lit⟩
    rw [Screen.pixel_mod] at lit
    exact ⟨row, column, (isSet_placement_iff inside).mpr ⟨below, narrow, bit⟩, lit⟩

/-- What a cycle that draws leaves, in terms of the screen alone. -/
theorem cycle_of_sprite
    (there : machine.memory.WordAt machine.pc.toNat (.ofDigits 0xD x y n.val))
    (inside : Memory.Fits machine.registers.index n.val) :
    let drawn := machine.screen.place (machine.placement x y n)
    machine.cycle.result = .ok .executed ∧
      machine.cycle.machine = { machine with
        opcode := .ofDigits 0xD x y n.val
        pc := machine.pc + 2
        registers := machine.registers.setFlag drawn.collision
        screen := drawn.screen
        redraw := true } := by
  intro drawn
  apply cycle_of_word (.draw x y n) there
  exact bind_eq_ok_iff.mpr ⟨_, drawSprite_eq_ok_iff.mpr ⟨inside, rfl⟩, rfl⟩

/-- A cycle on the instruction that draws a sprite goes well when all rows of the sprite lie in memory.
It changes the pixels under the set bits of the sprite, whose corner is where the two registers are
before the flag is set, flags whether one of these pixels was lit, and asks for a redraw. -/
theorem cycle_draws_sprite
    (there : machine.memory.WordAt machine.pc.toNat (.ofDigits 0xD x y n.val))
    (inside : machine.registers.index.toNat + n.val ≤ 4096) : Draws machine x y n := by
  rcases cycle_of_sprite there inside with ⟨executed, after_eq⟩
  have flagged : machine.cycle.machine.v .flag =
      (machine.screen.place (machine.placement x y n)).collision.toUInt8 := by
    simp only [after_eq, v, Registers.get_setFlag, if_true]
  exact
    { executed
      toggled := by
        intro across left down top
        rw [after_eq]
        exact pixel_placement_ne_iff inside left top
      flag_of_meets := by
        intro meets
        rw [flagged, (collision_placement_iff inside).mpr meets]
        rfl
      flag_of_apart := by
        intro apart
        rw [flagged, Bool.eq_false_iff.mpr fun collides =>
          apart ((collision_placement_iff inside).mp collides)]
        rfl
      others_eq := by
        intro other different
        simp only [after_eq, v, Registers.get_setFlag, if_neg different.symm]
      redraw_eq := by rw [after_eq]
      pc_eq := by
        rw [after_eq]
        exact (toNat_pc_fetched (Memory.opcodeAt_eq_ok_iff_wordAt.mpr there)).1
      machine_eq := by
        rw [flagged, after_eq]
        rfl }

set_option maxRecDepth 8000 in
theorem cycle_draws_sprite_of_flag_corner :
    ∃ start : Machine, build { fontStart := 0x000 } .zeroKeyed = .ok start ∧
      let program := [0x6F, 0x3F, 0xDF, 0xF5, 0x6F, 0x3F, 0xDF, 0xF5]
      let machine := start.afterAll [.load program 0x200, .frame 3]
      machine.memory.WordAt machine.pc.toNat (.ofDigits 0xD Register.flag Register.flag 5) ∧
        machine.registers.index.toNat + 5 ≤ 4096 ∧
        machine.Toggles Register.flag Register.flag 5 0 31 ∧
        Draws machine Register.flag Register.flag 5 ∧ machine.cycle.machine.v .flag = 1 ∧
        machine.cycle.machine.screen.pixel 0 31 ≠ machine.screen.pixel 0 31 := by
  refine ⟨_, build_eq_ok_iff.mpr ⟨rfl, rfl⟩, ?_⟩
  intro program machine
  have seen : (machine.memory.byte? machine.pc.toNat = some 0xDF ∧
      machine.memory.byte? (machine.pc.toNat + 1) = some 0xF5) ∧
      (machine.registers.index.toNat = 0 ∧ machine.memory.byte? 0 = some 0xF0) ∧
      machine.v .flag = 63 ∧ machine.screen.pixel 0 31 = true := by
    decide +kernel
  rcases seen with ⟨⟨highAt, lowAt⟩, ⟨index, rowAt⟩, corner, lit⟩
  have there : machine.memory.WordAt machine.pc.toNat
      (.ofDigits 0xD Register.flag Register.flag 5) := ⟨0xDF, 0xF5, highAt, lowAt, rfl⟩
  have inside : machine.registers.index.toNat + 5 ≤ 4096 := by
    rw [index]
    decide
  have toggles : machine.Toggles Register.flag Register.flag 5 0 31 := by
    refine ⟨0, by decide, 1, by decide, ?_, ?_, 0xF0, ?_, by decide⟩
    · rw [corner]
      rfl
    · rw [corner]
      rfl
    · rw [index]
      exact rowAt
  have draws : Draws machine Register.flag Register.flag 5 := cycle_draws_sprite there inside
  have meets : machine.Meets Register.flag Register.flag 5 :=
    ⟨0, by decide, 31, by decide, toggles, lit⟩
  exact ⟨there, inside, toggles, draws, draws.flag_of_meets meets,
    (draws.toggled 0 (by decide) 31 (by decide)).mpr toggles⟩

end Chip8.Machine
