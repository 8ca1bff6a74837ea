/-! A span of time as text: in seconds with as many decimals as it needs, or in milliseconds below one second. -/

namespace CrateYard.Text

/-- The digits of a number below 1000, without the zeros at the end. -/
def decimals (n : Nat) : List Char :=
  let digits := [n / 100 % 10, n / 10 % 10, n % 10].map fun d => Char.ofNat (48 + d)
  (digits.reverse.dropWhile (· = '0')).reverse

def elapsed (ms : Nat) : String :=
  if ms = 0 then "0ns"
  else if ms < 1000 then toString ms ++ "ms"
  else
    let fraction := decimals (ms % 1000)
    toString (ms / 1000) ++ (if fraction.isEmpty then "" else "." ++ String.ofList fraction) ++ "s"

end CrateYard.Text
