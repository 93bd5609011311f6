import Mathlib.Control.Monad.Basic
import Chip8.Proofs.Routines.Agreement

/-!
# Refused requests leave nothing half done

The routine of a request writes to the machine as it goes along, and what was written before a fault
stays written. Nevertheless a request that is refused changes nothing, except that a cycle which got
as far as an opcode has moved behind it and remembers it. Frames fail with one of their cycles, the
cycles before it having executed their instructions.
-/

namespace Chip8.Machine

/-- What a cycle that fails leaves. -/
inductive FailedCycle (before : Machine) (fault : Fault) : Machine → Prop where
  /-- Nothing could be fetched: the machine is as it was. -/
  | fetching (unfetched : before.memory.opcodeAt before.pc = .error fault) :
      FailedCycle before fault before
  /-- The opcode could not be read or its instruction was refused: all but the program counter and
  the last opcode is as it was, and the next cycle fetches behind the opcode. -/
  | later {opcode : Opcode} {after : Machine}
      (fetched : before.memory.opcodeAt before.pc = .ok opcode)
      (left : after = { before with opcode, pc := before.pc + 2 })
      (moved : after.pc.toNat = before.pc.toNat + 2) :
      FailedCycle before fault after

/-- What a request that is refused leaves. -/
inductive Failed (before : Machine) (fault : Fault) : Request → Machine → Prop where
  | cycle {after : Machine} (failed : FailedCycle before fault after) :
      Failed before fault .cycle after
  | frame {limit done : Nat} {last after : Machine} (below : done < limit)
      (ran : ∀ earlier < done,
        (before.afterActs (List.replicate earlier .cycle)).cycle.result = .ok .executed)
      (there : last = before.afterActs (List.replicate done .cycle))
      (failed : FailedCycle last fault after) :
      Failed before fault (.frame limit) after
  | loadRom {rom : Rom} : Failed before fault (.loadRom rom) before
  | load {bytes : List UInt8} {start : UInt16} : Failed before fault (.load bytes start) before
  | setKey {key : UInt8} {pressed : Bool} : Failed before fault (.setKey key pressed) before

variable {config : Config} {machine : Machine} {fault : Fault}

theorem failedCycle_of_error (failed : machine.cycle.result = .error fault) :
    FailedCycle machine fault machine.cycle.machine := by
  have way := machine.cycled
  generalize machine.cycle.result = result, machine.cycle.machine = after at failed way ⊢
  cases way with
  | unfetched unfetched =>
      cases failed
      exact .fetching unfetched
  | unknown found | refused found => exact .later found rfl (toNat_pc_fetched found).1
  | carried => cases failed

/-- A frame that fails is some cycles that go well and then one that fails. -/
theorem failed_of_runFrame {limit : Nat} (failed : (machine.runFrame limit).result = .error fault) :
    Failed machine fault (.frame limit) (machine.runFrame limit).machine := by
  induction limit generalizing machine with
  | zero => cases failed
  | succ limit ih =>
      rw [runFrame_succ] at failed ⊢
      cases first : machine.cycle.result with
      | error found =>
          simp only [first] at failed ⊢
          cases failed
          refine .frame (Nat.zero_lt_succ limit) ?_ rfl (failedCycle_of_error first)
          intro earlier below
          cases below
      | ok progress =>
          simp only [first] at failed ⊢
          cases progress with
          | waitingForKey register => cases failed
          | executed =>
              cases ih failed with
              | frame below ran there last =>
                  refine .frame (Nat.succ_lt_succ below) ?_ ?_ last
                  · intro earlier below
                    cases earlier with
                    | zero => exact first
                    | succ earlier => exact ran earlier (Nat.lt_of_succ_lt_succ below)
                  · exact there

theorem failed_of_hosted {act : Act} {reply : Reply Answer} (way : Hosted machine act reply)
    (refused : reply.result = .error fault) : Failed machine fault act.request reply.machine := by
  cases way with
  | refusedRom => exact .loadRom
  | refusedLoad => exact .load
  | refusedKey => exact .setKey
  | rom | load | tick | setKey | releaseKeys | takeRedraw => cases refused

/-- A request that is refused on a reachable machine ends its routine with the same fault and the
same machine, and all that the machine has kept of it is an opcode that a cycle had fetched. -/
theorem failed_of_refused (reached : Reachable config machine) {request : Request}
    (refused : (machine.perform request).result = .error fault) :
    let reply := machine.perform request
    Routine.perform request machine = some ⟨.error fault, reply.machine, reply.log⟩ ∧
      Failed machine fault request reply.machine := by
  constructor
  · rw [Routine.perform_apply reached.sound request, ← refused]
  · cases request with
    | cycle =>
        have failed := Reply.result_map_eq_error_iff.mp refused
        exact .cycle (failedCycle_of_error failed)
    | frame limit =>
        have failed := Reply.result_map_eq_error_iff.mp refused
        exact failed_of_runFrame failed
    | loadRom rom => exact failed_of_hosted (@hosted machine (.loadRom rom) (by simp)) refused
    | load bytes start => exact failed_of_hosted (@hosted machine (.load bytes start) (by simp)) refused
    | setKey key pressed =>
        exact failed_of_hosted (@hosted machine (.setKey key pressed) (by simp)) refused
    | tick | releaseKeys | takeRedraw => cases refused

set_option maxRecDepth 8000 in
theorem failed_of_refused_return :
    ∃ machine, Reachable .standard machine ∧
      (machine.perform .cycle).result = .error .stackUnderflow ∧
      Failed machine .stackUnderflow .cycle (machine.perform .cycle).machine := by
  have reached := (Reachable.built (build_standard .zeroKeyed)).afterAll
    [.load [0x00, 0xEE] 0x200]
  have refused : (((initial .standard (Memory.blank.write 0x050 Font.bytes)
      .zeroKeyed).afterAll [.load [0x00, 0xEE] 0x200]).perform .cycle).result =
      .error .stackUnderflow := by decide +kernel
  exact ⟨_, reached, refused, (failed_of_refused reached refused).2⟩

end Chip8.Machine
