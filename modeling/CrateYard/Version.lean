import CrateYard.Text.Split

/-! Semantic versions: three numbers, then a pre-release and build information, each a row of identifiers
between points. -/

namespace CrateYard

structure Version where
  major : Nat
  minor : Nat
  patch : Nat
  pre : String
  build : String
deriving DecidableEq, Repr

namespace Version

/-- A number of 64 bits without a leading zero, and what follows it. -/
def numeric? (text : List Char) : Option (Nat × List Char) :=
  let digits := text.takeWhile Char.isDigit
  let value := digits.foldl (fun n c => 10 * n + (c.toNat - 48)) 0
  if digits.isEmpty || (digits.head? = some '0' && digits.length > 1) || value ≥ Nat.pow 2 64 then none
  else some (value, text.dropWhile Char.isDigit)

/-- A character of an identifier. -/
def isIdentifier (c : Char) : Bool :=
  c.isAlphanum || c = '-'

/-- A row of identifiers, and what follows it. None is empty; where `strict`, a number has no leading zero. -/
def identifiers? (strict : Bool) (text : List Char) : Option (String × List Char) :=
  let row := text.takeWhile fun c => isIdentifier c || c = '.'
  let parts := Text.split '.' row
  let bad (part : List Char) : Bool :=
    part.isEmpty || (strict && part.all Char.isDigit && part.head? = some '0' && part.length > 1)
  if parts.any bad then none
  else some (String.ofList row, text.drop row.length)

/-- The row of identifiers behind `mark`; empty where the mark is not there. -/
def marked? (mark : Char) (strict : Bool) (text : List Char) : Option (String × List Char) :=
  match text with
  | c :: rest => if c = mark then identifiers? strict rest else some ("", text)
  | [] => some ("", [])

def point? : List Char → Option (List Char)
  | '.' :: rest => some rest
  | _ => none

def parse? (text : String) : Option Version := do
  let (major, rest) ← numeric? text.toList
  let (minor, rest) ← numeric? (← point? rest)
  let (patch, rest) ← numeric? (← point? rest)
  let (pre, rest) ← marked? '-' true rest
  let (build, rest) ← marked? '+' false rest
  if rest.isEmpty then some ⟨major, minor, patch, pre, build⟩ else none

def render (v : Version) : String :=
  toString v.major ++ "." ++ toString v.minor ++ "." ++ toString v.patch ++
    (if v.pre.isEmpty then "" else "-" ++ v.pre) ++ (if v.build.isEmpty then "" else "+" ++ v.build)

end Version
end CrateYard
