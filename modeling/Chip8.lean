import Chip8.Machine.Session
import Chip8.Proofs.Instruction.Reading
import Chip8.Proofs.Instruction.Decoding
import Chip8.Proofs.Machine.Cycles
import Chip8.Proofs.Machine.Transfers
import Chip8.Proofs.Machine.Loading
import Chip8.Proofs.Runs.Acts
import Chip8.Proofs.Runs.Frames
import Chip8.Proofs.Runs.Latest
import Chip8.Proofs.Runs.Concealment
import Chip8.Proofs.Runs.Outputs
import Chip8.Proofs.Runs.Transcript
import Chip8.Proofs.Safety.Invariant
import Chip8.Proofs.Routines.Basic
import Chip8.Proofs.Routines.Machine
import Chip8.Proofs.Routines.Agreement
import Chip8.Proofs.Safety.Requests
import Chip8.Proofs.Faults.Atomicity
import Chip8.Proofs.Faults.Conditions
import Chip8.Proofs.Faults.Halting
import Chip8.Proofs.Calls.Matching
import Chip8.Proofs.Calls.Nesting
import Chip8.Proofs.Calls.Depth
import Chip8.Proofs.Random.Consumption
import Chip8.Proofs.Random.Seeds
import Chip8.Proofs.Screen.Flips
import Chip8.Proofs.Screen.Draws
import Chip8.Proofs.Screen.Redraw
import Chip8.Proofs.Memory.Words
import Chip8.Proofs.Memory.Replay
import Chip8.Proofs.Memory.Edits
import Chip8.Proofs.Memory.Footprint
import Chip8.Proofs.Keys.Waiting
import Chip8.Proofs.Timers.Ticks
import Chip8.Proofs.Interleaving.Parts
import Chip8.Proofs.Interleaving.Swaps
import Chip8.Proofs.Screen.Hits
import Chip8.Proofs.Screen.Sprites
import Chip8.Proofs.Screen.Glyphs
import Chip8.Proofs.Registers.IndexFlag
import Chip8.Proofs.Registers.Saving
import Chip8.Proofs.Registers.Arithmetic
import Chip8.Proofs.Registers.Footprint
import Chip8.Proofs.Flow.Skips
import Chip8.Proofs.Keys.History
