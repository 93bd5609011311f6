import Mathlib.Control.Monad.Basic
import Chip8.Proofs.Machine.Loading
import Chip8.Proofs.Screen.Sprites

/-!
# Glyphs on the screen

The check of a configuration leaves room for the whole font. So the address of a glyph is a sum that
does not wrap around, and the five rows from there on lie in memory wherever the font was put, even if
its last byte is the last one of memory. A program that points the index register at the glyph of a
digit and draws five rows therefore shows the digit, for as long as nobody writes over the font.
-/

namespace Chip8

/-- A set bit of the glyph of a digit, with the corner of the glyph at the coordinates, lands on a
pixel around the edges. -/
def Font.Covers (digit left top across down : Nat) : Prop :=
  ∃ row < 5, ∃ column < 8, across = (left + column) % 64 ∧ down = (top + row) % 32 ∧
    ∃ byte, bytes[5 * digit + row]? = some byte ∧ byte.toNat.testBit (7 - column) = true

namespace Machine

/-- Two cycles that show a glyph: one points the index register at the glyph of a digit, five bytes of
memory, and one changes the pixels that the glyph covers, with its corner at `Va` and `Vb`. -/
structure ShowsGlyph (machine : Machine) (digit : Nat) (a b : Register) : Prop where
  points : machine.cycle.result = .ok .executed
  draws : machine.cycle.machine.cycle.result = .ok .executed
  index_eq : machine.cycle.machine.cycle.machine.registers.index.toNat =
    machine.config.fontStart.toNat + 5 * digit
  inside : machine.config.fontStart.toNat + 5 * digit + 5 ≤ 4096
  toggled : ∀ across < 64, ∀ down < 32,
    machine.cycle.machine.cycle.machine.screen.pixel across down ≠
        machine.screen.pixel across down ↔
      Font.Covers digit (machine.v a).toNat (machine.v b).toNat across down

variable {config : Config} {machine : Machine} {x a b : Register}

/-- The address of a glyph does not wrap around, since the font ends inside memory. -/
theorem toNat_glyphAddress (fits : machine.config.fontStart.toNat + 80 ≤ 4096)
    (digit : (machine.v x).toNat ≤ 0xF) :
    (machine.glyphAddress x).toNat = machine.config.fontStart.toNat + 5 * (machine.v x).toNat := by
  simp only [glyphAddress, Font.glyphSize, UInt16.toNat_add, UInt16.toNat_ofNat']
  omega

theorem cycle_of_setIndexToGlyph
    (there : machine.memory.WordAt machine.pc.toNat (.ofByte 0xF x 0x29)) :
    machine.cycle.result = .ok .executed ∧
      machine.cycle.machine =
        (machine.fetched (.ofByte 0xF x 0x29)).setIndex (machine.glyphAddress x) :=
  cycle_of_word (.setIndexToGlyph x) there rfl

/-- Where the font is whole, the rows of a glyph are found from its address on. -/
theorem byte?_of_glyph (fits : config.fontStart.toNat + 80 ≤ 4096)
    (font : machine.memory.read config.fontStart.toNat 80 = Font.bytes) {digit row : Nat}
    (known : digit ≤ 0xF) (below : row < 5) :
    machine.memory.byte? (config.fontStart.toNat + 5 * digit + row) =
      Font.bytes[5 * digit + row]? := by
  have within : 5 * digit + row < 80 := by omega
  rw [Nat.add_assoc, ← machine.memory.getElem?_read_of_inside fits within, font]

theorem toggles_iff_covers (fits : config.fontStart.toNat + 80 ≤ 4096)
    (font : machine.memory.read config.fontStart.toNat 80 = Font.bytes) {digit : Nat}
    (known : digit ≤ 0xF)
    (index : machine.registers.index.toNat = config.fontStart.toNat + 5 * digit)
    {across down : Nat} :
    machine.Toggles a b 5 across down ↔
      Font.Covers digit (machine.v a).toNat (machine.v b).toNat across down := by
  simp only [Toggles, Font.Covers, index]
  constructor
  · rintro ⟨row, below, column, narrow, onLeft, onTop, byte, there, bit⟩
    rw [byte?_of_glyph fits font known below] at there
    exact ⟨row, below, column, narrow, onLeft, onTop, byte, there, bit⟩
  · rintro ⟨row, below, column, narrow, onLeft, onTop, byte, there, bit⟩
    rw [← byte?_of_glyph fits font known below] at there
    exact ⟨row, below, column, narrow, onLeft, onTop, byte, there, bit⟩

/-- On every machine that a host can bring about, with the font still whole in memory, the two
instructions that point at the glyph of a digit and draw five rows show this glyph, whichever
registers they name. -/
theorem glyph_shown_in_every_layout (reached : Reachable config machine)
    (font : machine.memory.read config.fontStart.toNat 80 = Font.bytes)
    (points : machine.memory.WordAt machine.pc.toNat (.ofByte 0xF x 0x29))
    (draws : machine.memory.WordAt (machine.pc.toNat + 2) (.ofDigits 0xD a b 5))
    (digit : (machine.v x).toNat ≤ 0xF) :
    ShowsGlyph machine (machine.v x).toNat a b := by
  have config_eq := reached.sound.config_eq
  have fits : config.fontStart.toNat + 80 ≤ 4096 :=
    (Config.check_eq_ok_iff.mp reached.sound.layout).1
  rw [← config_eq] at fits font
  rcases cycle_of_setIndexToGlyph points with ⟨pointed, between_eq⟩
  have behind : machine.cycle.machine.pc.toNat = machine.pc.toNat + 2 := by
    rw [between_eq]
    exact (toNat_pc_fetched (Memory.opcodeAt_eq_ok_iff_wordAt.mpr points)).1
  have index : machine.cycle.machine.registers.index.toNat =
      machine.config.fontStart.toNat + 5 * (machine.v x).toNat := by
    rw [between_eq]
    exact toNat_glyphAddress fits digit
  have inside : machine.cycle.machine.registers.index.toNat + 5 ≤ 4096 := by
    rw [index]
    omega
  have there : machine.cycle.machine.memory.WordAt machine.cycle.machine.pc.toNat
      (.ofDigits 0xD a b 5) := by
    rw [behind, between_eq]
    exact draws
  have whole : machine.cycle.machine.memory.read machine.config.fontStart.toNat 80 =
      Font.bytes := by
    rw [between_eq]
    exact font
  rcases cycle_of_sprite (n := 5) there inside with ⟨drawn, last_eq⟩
  exact
    { points := pointed
      draws := drawn
      index_eq := by
        rw [last_eq]
        exact index
      inside := by
        rw [← index]
        exact inside
      toggled := by
        intro across left down top
        have toggled := pixel_placement_ne_iff (x := a) (y := b) (n := 5) inside left top
        rw [toggles_iff_covers fits whole digit index] at toggled
        rw [last_eq]
        rw [between_eq] at toggled ⊢
        exact toggled }

theorem glyph_shown_in_every_layout_of_last_glyph :
    ∃ config start, build config .zeroKeyed = .ok start ∧
      config.fontStart.toNat + 80 = 4096 ∧
      let program : Rom := ⟨[0x6F, 0x0F, 0xFF, 0x29, 0xDF, 0xF5]⟩
      let machine := (start.loadRom program).machine.cycle.machine
      machine.memory.WordAt machine.pc.toNat (.ofByte 0xF Register.flag 0x29) ∧
        machine.memory.WordAt (machine.pc.toNat + 2) (.ofDigits 0xD Register.flag Register.flag 5) ∧
        machine.memory.read config.fontStart.toNat 80 = Font.bytes ∧
        (machine.v .flag).toNat = 0xF ∧ ShowsGlyph machine 0xF .flag .flag ∧
        Font.Covers 0xF 15 15 15 19 := by
  let config : Config := { fontStart := 0xFB0 }
  obtain ⟨start, built⟩ : ∃ start, build config .zeroKeyed = .ok start :=
    ⟨_, build_eq_ok_iff.mpr ⟨rfl, rfl⟩⟩
  refine ⟨config, start, built, rfl, ?_⟩
  intro program
  have start_eq := (build_eq_ok_iff.mp built).2
  have config_eq : start.config = config := congrArg Machine.config start_eq
  have pc_eq : start.pc = 0x200 := congrArg Machine.pc start_eq
  have loaded : (start.loadRom program).result = .ok () := by
    apply (loadRom_iff_load _ program).1.mpr
    · rw [config_eq]
      decide
    · rw [config_eq]
      decide
  have shown {address : Nat} (inside : address < 4096) :=
    byte?_of_build_of_loadRom built loaded inside
  have whole := slice_font_of_spared built loaded fun _ _ below =>
    .inl (Nat.lt_trans below (by decide))
  have reached := Reachable.performed (.loadRom program) (.built built)
  rcases @act_changes start (.loadRom program) nofun with ⟨_, _, _, _, _, changed⟩
  have place : (start.loadRom program).machine.pc = 0x200 := (congrArg pc changed).trans pc_eq
  simp only [perform, Reply.machine_map] at reached
  generalize (start.loadRom program).machine = first at *
  have loads : first.memory.WordAt first.pc.toNat (.ofByte 0x6 Register.flag 0x0F) := by
    rw [place]
    exact ⟨0x6F, 0x0F, shown (by decide), shown (by decide), rfl⟩
  rcases cycle_of_word (.loadByte .flag 0x0F) loads rfl with ⟨_, machine_eq⟩
  have behind : first.cycle.machine.pc = 0x202 := by
    rw [machine_eq]
    exact congrArg (· + 2) place
  have memory_eq : first.cycle.machine.memory = first.memory := by
    rw [machine_eq]
    rfl
  have points : first.cycle.machine.memory.WordAt first.cycle.machine.pc.toNat
      (.ofByte 0xF Register.flag 0x29) := by
    rw [behind, memory_eq]
    exact ⟨0xFF, 0x29, shown (by decide), shown (by decide), rfl⟩
  have draws : first.cycle.machine.memory.WordAt (first.cycle.machine.pc.toNat + 2)
      (.ofDigits 0xD Register.flag Register.flag 5) := by
    rw [behind, memory_eq]
    exact ⟨0xDF, 0xF5, shown (by decide), shown (by decide), rfl⟩
  have font : first.cycle.machine.memory.read config.fontStart.toNat 80 = Font.bytes := by
    rw [memory_eq]
    exact (Memory.slice_eq_ok_iff.mp whole).2.symm
  have digit : (first.cycle.machine.v .flag).toNat = 0xF := by
    rw [machine_eq, v_setV, if_pos rfl]
    rfl
  have shows := glyph_shown_in_every_layout (.performed .cycle reached) font points draws
    (Nat.le_of_eq digit)
  simp only [perform, Reply.machine_map, digit] at shows
  exact ⟨points, draws, font, digit, shows, 4, by decide, 0, by decide, rfl, rfl, 0x80, rfl,
    by decide⟩

end Machine

end Chip8
