/-!
# Log levels

Messages have one of three levels, in rising order of weight.
-/

namespace Chip8.Log

inductive Level
  | debug
  | info
  | error
  deriving DecidableEq, Repr

namespace Level

def all : List Level := [.debug, .info, .error]

def name : Level → String
  | .debug => "DEBUG"
  | .info => "INFO"
  | .error => "ERROR"

def weight : Level → Nat
  | .debug => 0
  | .info => 1
  | .error => 2

def ofName? (name : String) : Option Level :=
  all.find? fun level => level.name = name

/-- A letter as a capital. Besides the letters of ASCII, only the dotless `ı` has a capital that
occurs in the name of a level. -/
def capital (letter : Char) : Char := if letter = 'ı' then 'I' else letter.toUpper

def ofAnyCase? (name : String) : Option Level :=
  ofName? (String.ofList (name.toList.map capital))

def color : Level → String
  | .debug => "\x1b[36m"
  | .info => "\x1b[32m"
  | .error => "\x1b[31m"

def colorEnd : String := "\x1b[0m"

end Level

end Chip8.Log
