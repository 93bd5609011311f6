import Mathlib.Control.Monad.Basic
import Chip8.Proofs.Memory.Edits
import Chip8.Proofs.Safety.Invariant

/-!
# Building a machine and loading a rom

Three checks decide whether bytes get into memory: that of the configuration, that of the size of a
rom, and that of memory itself. They are stated in different terms and agree at every boundary. Behind
the check of the configuration the font always fits, and behind that of its size a rom always does, so
memory refuses neither. A rom covers the font only where their ranges meet, which in the usual layout
they never do.
-/

namespace Chip8

namespace Config

/-- A rom and the font have no address in common. -/
def SparesFont (config : Config) (rom : Rom) : Prop :=
  ∀ address, config.programStart.toNat ≤ address →
    address < config.programStart.toNat + rom.size →
      address < config.fontStart.toNat ∨ config.fontStart.toNat + 80 ≤ address

variable {config : Config} {offset : Nat}

theorem firstByte_of_font (below : offset < 80) :
    some (config.firstByte (config.fontStart.toNat + offset)) = Font.bytes[offset]? := by
  have inside : offset < Font.bytes.length := Nat.lt_of_lt_of_eq below Font.length_bytes.symm
  rw [firstByte, if_pos ⟨Nat.le_add_right _ _, Nat.add_lt_add_left below _⟩,
    Nat.add_sub_cancel_left, List.getD_eq_getElem?_getD, List.getElem?_eq_getElem inside,
    Option.getD_some]

end Config

namespace Machine

variable {config : Config} {source : Random.Source} {machine : Machine} {rom : Rom}

/-- What the room for a rom is for: its bytes lie in memory if there are not more of them. -/
theorem fits_iff_size_le_room (start : config.programStart.toNat ≤ 4096) (rom : Rom) :
    Memory.Fits config.programStart rom.bytes.length ↔ rom.size ≤ config.room :=
  (Nat.le_sub_iff_add_le' start).symm

theorem loadRom_eq_of_start (start : machine.config.programStart.toNat ≤ 4096) (rom : Rom) :
    machine.loadRom rom =
      if rom.size ≤ machine.config.room then
        { machine.load rom.bytes machine.config.programStart with log := [.romLoaded rom.size] }
      else .refused machine (.romTooLarge rom.size machine.config.room) := by
  simp only [loadRom_eq, load_eq, fits_iff_size_le_room start]
  by_cases small : rom.size ≤ machine.config.room
  · simp only [small, if_true, if_neg (Nat.not_lt.mpr small)]
    rfl
  · simp only [small, if_false, if_pos (Nat.lt_of_not_le small)]

/-- Loading a rom and loading its bytes where the program starts are met together, and leave the same
machine. -/
theorem loadRom_iff_load (start : machine.config.programStart.toNat ≤ 4096) (rom : Rom) :
    let loaded := machine.loadRom rom
    let copied := machine.load rom.bytes machine.config.programStart
    (loaded.result = .ok () ↔ rom.size ≤ machine.config.room) ∧
      (∀ fault, loaded.result = .error fault ↔
        machine.config.room < rom.size ∧ fault = .romTooLarge rom.size machine.config.room) ∧
      (copied.result = .ok () ↔ rom.size ≤ machine.config.room) ∧
      copied.machine = loaded.machine := by
  simp only [loadRom_eq_of_start start, load_eq, fits_iff_size_le_room start]
  split
  next small => simp [Reply.done, small, Nat.not_lt.mpr small]
  next large => simp [Reply.refused, large, Nat.lt_of_not_le large, eq_comm]

/-! ## Memory behind building and loading -/

/-- A rom that is loaded into a machine which was just built shows in its range, and what building put
shows everywhere else. -/
theorem byte?_of_build_of_loadRom {address : Nat} (built : build config source = .ok machine)
    (loaded : (machine.loadRom rom).result = .ok ()) (inside : address < 4096) :
    (machine.loadRom rom).machine.memory.byte? address =
      if config.programStart.toNat ≤ address ∧ address < config.programStart.toNat + rom.size then
        rom.bytes[address - config.programStart.toNat]?
      else some (config.firstByte address) := by
  have sound := sound_of_build built
  have config_eq := sound.config_eq
  have start := Nat.le_of_add_right_le (Config.check_eq_ok_iff.mp sound.layout).2
  rw [← config_eq] at start
  have small := (loadRom_iff_load start rom).1.mp loaded
  rw [loadRom_eq_of_start start, if_pos small, load_eq, if_pos ((fits_iff_size_le_room start rom).mpr small)]
  simp only [Reply.done, Memory.byte?_write, config_eq, byte?_of_build built inside, inside,
    and_true]
  rfl

theorem slice_font_of_spared (built : build config source = .ok machine)
    (loaded : (machine.loadRom rom).result = .ok ()) (spared : config.SparesFont rom) :
    (machine.loadRom rom).machine.memory.slice config.fontStart 80 = .ok Font.bytes := by
  have font := (Config.check_eq_ok_iff.mp (sound_of_build built).layout).1
  apply Memory.slice_eq_ok_iff_bytes.mpr
  refine ⟨font, Font.length_bytes, ?_⟩
  intro offset below
  have inside : config.fontStart.toNat + offset < 4096 :=
    Nat.lt_of_lt_of_le (Nat.add_lt_add_left below _) font
  rw [byte?_of_build_of_loadRom built loaded inside, if_neg, Config.firstByte_of_font below]
  rintro ⟨above, covered⟩
  rcases spared _ above covered with before | behind
  · exact absurd before (Nat.not_lt.mpr (Nat.le_add_right _ _))
  · exact absurd below (Nat.not_lt.mpr (Nat.le_of_add_le_add_left behind))

end Machine

end Chip8
