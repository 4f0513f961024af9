import Chip8.Text.Hex
import Chip8.Word
import Chip8.Alu
import Chip8.Layout
import Chip8.Opcode
import Chip8.Instruction
import Chip8.Fault
import Chip8.Variant
import Chip8.Directory
import Chip8.Image
import Chip8.Listing
import Chip8.Size
import Chip8.Signed32
import Chip8.Font
import Chip8.Memory
import Chip8.CallStack
import Chip8.Sprite
import Chip8.Display
import Chip8.Keypad
import Chip8.Random
import Chip8.Registers
import Chip8.Machine
import Chip8.Machine.Options
import Chip8.Machine.Execute
import Chip8.Machine.Step
import Chip8.Text.Seconds
import Chip8.Log.Level
import Chip8.Log.Message
import Chip8.Log.Console
import Chip8.Log.Tracer
import Chip8.Session
import Chip8.Demo
import Chip8.Main
import Chip8.Machine.History
import Chip8.Display.Pixelwise
import Chip8.Session.History
import Chip8.Proofs.Instruction.Encoding
import Chip8.Proofs.Instruction.Grammar
import Chip8.Proofs.Listing.RoundTrip
import Chip8.Proofs.CallStack
import Chip8.Proofs.Machine.Peripherals
import Chip8.Proofs.Machine.Step
import Chip8.Proofs.Machine.Parts
import Chip8.Proofs.Machine.Effect
import Chip8.Proofs.Machine.Histories
import Chip8.Proofs.Machine.ReservedArea
import Chip8.Proofs.Machine.WellFormed
import Chip8.Proofs.Machine.ProgramCounter
import Chip8.Proofs.Machine.Growth
import Chip8.Proofs.Machine.HostEvents
import Chip8.Proofs.Machine.Faults
import Chip8.Proofs.Machine.KeyWait
import Chip8.Proofs.Machine.Loaded
import Chip8.Proofs.Machine.Subroutines
import Chip8.Proofs.Session.Calls
import Chip8.Proofs.Session.Steps
import Chip8.Proofs.Session.Replay
import Chip8.Proofs.Session.Loading
import Chip8.Proofs.Session.Account
import Chip8.Proofs.Session.Tracing
import Chip8.Proofs.Session.LogLevels
import Chip8.Proofs.Session.RandomStream
import Chip8.Proofs.Session.KeyWait
import Chip8.Proofs.Session.Listing
import Chip8.Proofs.Machine.Reloading
import Chip8.Proofs.Display.Drawing
import Chip8.Proofs.Display.Pixelwise
import Chip8.Proofs.Display.Overlays
import Chip8.Proofs.Display.Collisions
import Chip8.Proofs.Machine.Arithmetic
import Chip8.Proofs.Machine.WriteSets
import Chip8.CallStack.History
import Chip8.Proofs.CallStack.BoundedList
import Chip8.Memory.History
import Chip8.Proofs.Memory.CheckedStore
import Chip8.Proofs.Instruction.Fields
import Chip8.Proofs.Machine.Keys
import Chip8.Proofs.Machine.Transfers
import Chip8.Proofs.Text.Hex
import Chip8.Proofs.Instruction.Assembly
import Chip8.Proofs.Listing.Text
