import Chip8.Keypad
import Chip8.Outcome
import Chip8.Random.Source
import Chip8.Screen.Sprite

/-!
# The machine

Everything a machine remembers, how one is built from a configuration, and how bytes get into its
memory. Building checks the configuration first, so a machine always has its whole font in memory.
-/

namespace Chip8

/-- The state of a machine. -/
structure Machine where
  config : Config
  memory : Memory
  registers : Registers
  /-- The address of the opcode to be fetched next. -/
  pc : UInt16
  /-- The opcode that was fetched last. -/
  opcode : Opcode
  stack : CallStack
  keypad : Keypad
  screen : Screen
  /-- Whether the screen was drawn on or cleared since the host last asked. -/
  redraw : Bool
  random : Random.Stream

namespace Machine

/-- What a request to a machine comes to: a value or a fault, the machine after it, and the events
on the way. -/
structure Reply (α : Type) where
  result : Except Fault α
  machine : Machine
  log : List Event

namespace Reply

variable {α β : Type}

/-- A machine that met a request without an event. -/
def done (machine : Machine) (value : α) : Reply α := ⟨.ok value, machine, []⟩

/-- A machine that refused a request without an event. -/
def refused (machine : Machine) (fault : Fault) : Reply α := ⟨.error fault, machine, []⟩

def map (f : α → β) (reply : Reply α) : Reply β :=
  ⟨reply.result.map f, reply.machine, reply.log⟩

@[simp] theorem machine_map (f : α → β) (reply : Reply α) :
    (reply.map f).machine = reply.machine := rfl

@[simp] theorem log_map (f : α → β) (reply : Reply α) : (reply.map f).log = reply.log := rfl

@[simp] theorem result_map (f : α → β) (reply : Reply α) :
    (reply.map f).result = reply.result.map f := rfl

theorem result_map_eq_error_iff {f : α → β} {reply : Reply α} {fault : Fault} :
    (reply.map f).result = .error fault ↔ reply.result = .error fault := by
  simp only [result_map]
  cases reply.result with
  | error found => simp [Except.map]
  | ok value => simp [Except.map]

end Reply

/-- A machine before its first cycle, with the font in `memory`. A machine without a seed draws the
random bytes of the host. -/
def initial (config : Config) (memory : Memory) (source : Random.Source) : Machine where
  config := config
  memory := memory
  registers := .zero
  pc := config.programStart
  opcode := 0
  stack := .empty
  keypad := .released
  screen := .blank
  redraw := false
  random := match config.seed with
    | some seed => .ofBytes (source.seeded seed)
    | none => .ofBytes source.unseeded

/-- Build a machine with the font in an otherwise blank memory. The room for its calls is left to
`construct`. -/
def build (config : Config) (source : Random.Source) : Except Fault Machine := do
  config.check
  let memory ← Memory.blank.load Font.bytes config.fontStart
  return initial config memory source

/-- A machine is built when the configuration is in order, and the font lies in its memory. -/
theorem build_eq_ok_iff {config : Config} {source : Random.Source} {machine : Machine} :
    build config source = .ok machine ↔
      config.check = .ok () ∧
        machine = initial config (Memory.blank.write config.fontStart.toNat Font.bytes) source := by
  cases checked : config.check with
  | error fault => simp [build, checked, bind, Except.bind]
  | ok =>
      have fits := (Config.check_eq_ok_iff.mp checked).1
      simp [build, checked, bind, Except.bind, Memory.load, fits, pure, Except.pure, eq_comm]

/-- Build a machine and report it. -/
def boot (config : Config) (source : Random.Source) : Outcome Machine :=
  match build config source with
  | .ok machine => .reported machine (.ready config)
  | .error fault => .refused fault

/-- Put bytes into memory from `start` on. -/
def load (machine : Machine) (bytes : List UInt8) (start : UInt16) : Reply Unit :=
  match machine.memory.load bytes start with
  | .ok memory => .done { machine with memory } ()
  | .error fault => .refused machine fault

theorem load_eq (machine : Machine) (bytes : List UInt8) (start : UInt16) :
    machine.load bytes start =
      if Memory.Fits start bytes.length then
        .done { machine with memory := machine.memory.write start.toNat bytes } ()
      else .refused machine (Memory.rangeFault start bytes.length) := by
  simp only [load, Memory.load]
  by_cases inside : Memory.Fits start bytes.length
  · simp only [inside, if_true]
  · simp only [inside, if_false]

/-- Put a rom where the program starts, if there is room for it. -/
def loadRom (machine : Machine) (rom : Rom) : Reply Unit :=
  if rom.size ≤ machine.config.room then
    let loaded := machine.load rom.bytes machine.config.programStart
    match loaded.result with
    | .ok _ => { loaded with log := [.romLoaded rom.size] }
    | .error _ => loaded
  else .refused machine (.romTooLarge rom.size machine.config.room)

theorem loadRom_eq (machine : Machine) (rom : Rom) :
    machine.loadRom rom =
      let start := machine.config.programStart
      if machine.config.room < rom.size then
        .refused machine (.romTooLarge rom.size machine.config.room)
      else if Memory.Fits start rom.bytes.length then
        ⟨.ok (), { machine with memory := machine.memory.write start.toNat rom.bytes },
          [.romLoaded rom.size]⟩
      else .refused machine (Memory.rangeFault start rom.bytes.length) := by
  simp only [loadRom, load_eq, ← Nat.not_le, ite_not]
  by_cases inside : Memory.Fits machine.config.programStart rom.bytes.length
  · simp only [inside, if_true]
    rfl
  · simp only [inside, if_false]
    rfl

/-- Build a machine in the usual layout and put a rom into it. -/
def bootWithRom (rom : Rom) (source : Random.Source) : Outcome Machine :=
  (boot .standard source).andThen fun machine =>
    let loaded := machine.loadRom rom
    ⟨loaded.result.map fun _ => loaded.machine, loaded.log⟩

/-- Whether a host should beep. -/
def soundActive (machine : Machine) : Bool :=
  decide (0 < machine.registers.sound)

end Machine

end Chip8
