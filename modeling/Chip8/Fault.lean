import Chip8.Text.Hex

/-!
# Faults

The conditions that stop an interpreter. Each fault has a kind, the kinds form a hierarchy, so that
a host can handle all faults of the call stack or all faults of an image alike, and each fault has
one message.
-/

namespace Chip8

/-! ## Kinds -/

inductive FaultKind
  | any
  | invalidOpcode
  | outOfBounds
  | badProgramCounter
  | image
  | imageTooLarge
  | invalidImage
  | stack
  | stackOverflow
  | stackUnderflow
  deriving DecidableEq, Repr

namespace FaultKind

/-- The kind and the kinds above it, up to the kind of all faults. -/
def lineage : FaultKind → List FaultKind
  | .any => [.any]
  | .invalidOpcode => [.invalidOpcode, .any]
  | .outOfBounds => [.outOfBounds, .any]
  | .badProgramCounter => [.badProgramCounter, .outOfBounds, .any]
  | .image => [.image, .any]
  | .imageTooLarge => [.imageTooLarge, .image, .any]
  | .invalidImage => [.invalidImage, .image, .any]
  | .stack => [.stack, .any]
  | .stackOverflow => [.stackOverflow, .stack, .any]
  | .stackUnderflow => [.stackUnderflow, .stack, .any]

end FaultKind

/-! ## Causes -/

inductive AccessProblem
  | outside
  | reserved
  | other (reason : String)
  deriving DecidableEq, Repr

def AccessProblem.message : AccessProblem → String
  | .outside => "outside memory"
  | .reserved => "inside the reserved interpreter area"
  | .other reason => reason

inductive FileProblem
  | missing
  | isFolder
  | notFolder
  | nameTooLong
  deriving DecidableEq, Repr

def FileProblem.message : FileProblem → String
  | .missing => "No such file or directory"
  | .isFolder => "Is a directory"
  | .notFolder => "Not a directory"
  | .nameTooLong => "File name too long"

inductive ImageProblem
  | empty
  | unreadable (path : String) (problem : FileProblem)
  | other (reason : String)
  deriving DecidableEq, Repr

def ImageProblem.message : ImageProblem → String
  | .empty => "image is empty"
  | .unreadable path problem => "cannot read " ++ path ++ ": " ++ problem.message
  | .other reason => reason

inductive Fault
  | invalidOpcode (word : Int)
  | outOfBounds (address length : Int) (problem : AccessProblem)
  | badProgramCounter (address : Int)
  | imageTooLarge (size budget : Int)
  | invalidImage (problem : ImageProblem)
  | stackOverflow (depth : Int)
  | stackUnderflow
  | other (text : String)
  | otherImage (text : String)
  | otherStack (text : String)
  deriving DecidableEq, Repr

namespace Fault

def kind : Fault → FaultKind
  | .invalidOpcode _ => .invalidOpcode
  | .outOfBounds .. => .outOfBounds
  | .badProgramCounter _ => .badProgramCounter
  | .imageTooLarge .. => .imageTooLarge
  | .invalidImage _ => .invalidImage
  | .stackOverflow _ => .stackOverflow
  | .stackUnderflow => .stackUnderflow
  | .other _ => .any
  | .otherImage _ => .image
  | .otherStack _ => .stack

def accessMessage (address length : Int) (reason : String) : String :=
  "access of " ++ toString length ++ " byte(s) at 0x" ++ Text.Hex.numeral 3 address ++ " is " ++
    reason

def message : Fault → String
  | .invalidOpcode word => "invalid opcode 0x" ++ Text.Hex.numeral 4 word
  | .outOfBounds address length problem => accessMessage address length problem.message
  | .badProgramCounter address => accessMessage address 2 "not a valid program counter"
  | .imageTooLarge size budget =>
      "ROM of " ++ toString size ++ " bytes exceeds the " ++ toString budget ++ " byte budget"
  | .invalidImage problem => "invalid ROM: " ++ problem.message
  | .stackOverflow depth => "stack overflow: call depth exceeds " ++ toString depth
  | .stackUnderflow => "stack underflow: return with an empty stack"
  | .other text | .otherImage text | .otherStack text => text

end Fault

end Chip8
