import Chip8.Config
import Chip8.Proofs.Machine.Cycles
import Chip8.Proofs.Runs.Acts

/-!
# The safety invariant

The program counter of a reachable machine stays far below the end of the sixteen-bit words, at
most as many calls are open as the configuration allows, and each of them goes on inside memory or
right behind it. The bound on the program counter is that of the farthest jump, the greatest address
plus the greatest byte; all other ways on end earlier.
-/

namespace Chip8.Machine

/-- The farthest place that a jump can lead to. -/
def farthest : Nat := 0x10FE

/-- What holds of every machine that was built from a configuration and used. -/
structure Sound (config : Config) (machine : Machine) : Prop where
  layout : config.check = .ok ()
  config_eq : machine.config = config
  pc_le : machine.pc.toNat ≤ farthest
  depth_le : machine.stack.depth ≤ config.stackDepth
  returns_mem : ∀ address ∈ machine.stack.returns,
    0x002 ≤ address.toNat ∧ address.toNat ≤ 0x1000

variable {config : Config} {machine after : Machine}

/-- A machine that was built has its program inside memory and no open calls. -/
theorem sound_of_build {source : Random.Source}
    (built : build config source = .ok machine) : Sound config machine := by
  rcases build_eq_ok_iff.mp built with ⟨checked, rfl⟩
  have fits := (Config.check_eq_ok_iff.mp checked).2
  simp only [Memory.Fits, Memory.size] at fits
  refine ⟨checked, rfl, ?_, Nat.zero_le _, ?_⟩
  · simp only [initial, farthest]
    omega
  · intro address opened
    cases opened

theorem Sound.fetched {opcode : Opcode} (sound : Sound config machine)
    (found : machine.memory.opcodeAt machine.pc = .ok opcode) :
    Sound config (machine.fetched opcode) := by
  rcases toNat_pc_fetched found with ⟨moved, inside⟩
  refine ⟨sound.layout, sound.config_eq, ?_, sound.depth_le, sound.returns_mem⟩
  rw [moved]
  simp only [Memory.size] at inside
  simp only [farthest]
  omega

/-- The ways on from behind an opcode in memory all end before the farthest jump. -/
theorem GoesOn.toNat_le {pc target : UInt16} (goes : GoesOn pc target)
    (inside : pc.toNat ≤ Memory.size) : target.toNat ≤ farthest := by
  simp only [Memory.size] at inside
  simp only [farthest]
  cases goes with
  | next => omega
  | skip =>
      simp only [UInt16.toNat_add, UInt16.reduceToNat]
      omega
  | jump nnn =>
      have bound := nnn.isLt
      simp only [Memory.size] at bound
      rw [Address.toNat_toWord]
      omega
  | jumpPlus nnn offset =>
      have bound := nnn.isLt
      have small := offset.toNat_lt
      simp only [Memory.size] at bound
      simp only [UInt16.toNat_add, Address.toNat_toWord, UInt8.toNat_toUInt16]
      omega

/-- An instruction that is carried out behind an opcode in memory keeps the invariant. -/
theorem Sound.carried {instruction : Instruction} {progress : Progress}
    (sound : Sound config machine) (behind : 2 ≤ machine.pc.toNat)
    (inside : machine.pc.toNat ≤ Memory.size)
    (carried : Carried machine instruction progress after) : Sound config after := by
  rcases sound with ⟨layout, same, bound, depth, returns⟩
  cases carried with
  | clear | transfer | random | draw | store => exact ⟨layout, same, bound, depth, returns⟩
  | flow about goes => exact ⟨layout, same, goes.toNat_le inside, depth, returns⟩
  | wait released =>
      refine ⟨layout, same, ?_, depth, returns⟩
      have fewer : (machine.pc - 2).toNat = machine.pc.toNat - 2 := UInt16.toNat_sub_of_le _ _ behind
      rw [fewer]
      exact Nat.le_trans (Nat.sub_le _ _) bound
  | call room =>
      refine ⟨layout, same, (GoesOn.jump _).toNat_le inside, ?_, ?_⟩
      · rw [same] at room
        exact room
      · intro address member
        rcases List.mem_cons.mp member with rfl | older
        · exact ⟨behind, inside⟩
        · exact returns address older
  | back opened =>
      rw [opened] at depth returns
      have target := returns _ List.mem_cons_self
      refine ⟨layout, same, ?_, Nat.le_of_succ_le depth, ?_⟩
      · exact Nat.le_trans target.2 (by decide)
      · intro address member
        exact returns address (List.mem_cons_of_mem _ member)

theorem Sound.cycle (sound : Sound config machine) : Sound config machine.cycle.machine := by
  have way := machine.cycled
  generalize machine.cycle.result = result, machine.cycle.machine = after at way ⊢
  cases way with
  | unfetched => exact sound
  | unknown found | refused found => exact sound.fetched found
  | carried found known met =>
      rcases toNat_pc_fetched found with ⟨moved, inside⟩
      apply (sound.fetched found).carried _ _ (carried_of_execute met)
      · rw [moved]
        exact Nat.le_add_left _ _
      · rw [moved]
        exact inside

theorem Sound.act (sound : Sound config machine) (act : Act) : Sound config (machine.act act) := by
  by_cases cycles : act = .cycle
  · subst cycles
    exact sound.cycle
  · rcases machine.act_changes cycles with ⟨_, _, _, _, _, changed⟩
    rw [changed]
    exact ⟨sound.layout, sound.config_eq, sound.pc_le, sound.depth_le, sound.returns_mem⟩

/-- The invariant holds of every reachable machine. -/
theorem Reachable.sound (reached : Reachable config machine) : Sound config machine :=
  reached.of_invariant (fun _ _ => sound_of_build) fun _ act sound => sound.act act

end Chip8.Machine
