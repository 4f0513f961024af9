/-!
# Durations as text

A clock counts eighths of a second. Durations are written in seconds with two decimals; an eighth
is an exact tie between two hundredths whenever the count is odd, and the even one is taken.
-/

namespace Chip8

abbrev Time := Int

namespace Text.Seconds

/-- A number of eighths as hundredths, a tie going to the even hundredth. -/
def hundredths (eighths : Nat) : Nat :=
  let floor := eighths * 25 / 2
  if eighths * 25 % 2 = 0 then floor else floor + floor % 2

def twoDigits (value : Nat) : String :=
  if value < 10 then "0" ++ toString value else toString value

def text (time : Time) : String :=
  let count := hundredths time.natAbs
  let sign := if time < 0 then "-" else ""
  sign ++ toString (count / 100) ++ "." ++ twoDigits (count % 100)

example : (hundredths 1, hundredths 3, hundredths 5, hundredths 7) = (12, 38, 62, 88) := rfl

end Text.Seconds

end Chip8
