import CrateYard.Json.Value

/-! The text of a value: members in their order, strings with the shortest escapes. -/

namespace CrateYard.Json

namespace Writer

def hexDigit (n : Nat) : Char :=
  if n < 10 then Char.ofNat (48 + n) else Char.ofNat (87 + n)

/-- A character inside a string literal: a quote, a backslash and the control characters are escaped. -/
def escape (c : Char) : List Char :=
  match c with
  | '"' => ['\\', '"']
  | '\\' => ['\\', '\\']
  | '\x08' => ['\\', 'b']
  | '\x0c' => ['\\', 'f']
  | '\n' => ['\\', 'n']
  | '\r' => ['\\', 'r']
  | '\t' => ['\\', 't']
  | c =>
    if c.toNat < 0x20 then ['\\', 'u', '0', '0', hexDigit (c.toNat / 16), hexDigit (c.toNat % 16)]
    else [c]

/-- A literal without a text is written as a lone surrogate escape. -/
def literal : Literal → String
  | some s => String.ofList ('"' :: s.toList.flatMap escape ++ ['"'])
  | none => "\"\\ud800\""

def number (n : Number) : String :=
  let sign := if n.negative then "-" else ""
  let fraction := if n.fraction.isEmpty then "" else "." ++ String.join (n.fraction.map fun d => toString d.val)
  let exponent := match n.exponent with
    | some e => "e" ++ toString e
    | none => ""
  sign ++ toString n.whole ++ fraction ++ exponent

end Writer

mutual

def Value.compact : Value → String
  | .null => "null"
  | .bool true => "true"
  | .bool false => "false"
  | .number n => Writer.number n
  | .string s => Writer.literal s
  | .array items => "[" ++ Value.compactItems items ++ "]"
  | .object members => "\x7b" ++ Value.compactMembers members ++ "\x7d"

def Value.compactItems : List Value → String
  | [] => ""
  | [v] => v.compact
  | v :: rest => v.compact ++ "," ++ Value.compactItems rest

def Value.compactMembers : List (Literal × Value) → String
  | [] => ""
  | [(name, v)] => Writer.literal name ++ ":" ++ v.compact
  | (name, v) :: rest => Writer.literal name ++ ":" ++ v.compact ++ "," ++ Value.compactMembers rest

end

mutual

/-- The text with a line per item and member, two blanks deeper at each level. -/
def Value.pretty (indent : String) : Value → String
  | .array [] => "[]"
  | .array (v :: rest) =>
    "[\n" ++ Value.prettyItems (indent ++ "  ") (v :: rest) ++ "\n" ++ indent ++ "]"
  | .object [] => "\x7b\x7d"
  | .object (m :: rest) =>
    "\x7b\n" ++ Value.prettyMembers (indent ++ "  ") (m :: rest) ++ "\n" ++ indent ++ "\x7d"
  | .null => "null"
  | .bool true => "true"
  | .bool false => "false"
  | .number n => Writer.number n
  | .string s => Writer.literal s

def Value.prettyItems (indent : String) : List Value → String
  | [] => ""
  | [v] => indent ++ v.pretty indent
  | v :: rest => indent ++ v.pretty indent ++ ",\n" ++ Value.prettyItems indent rest

def Value.prettyMembers (indent : String) : List (Literal × Value) → String
  | [] => ""
  | [(name, v)] => indent ++ Writer.literal name ++ ": " ++ v.pretty indent
  | (name, v) :: rest =>
    indent ++ Writer.literal name ++ ": " ++ v.pretty indent ++ ",\n" ++ Value.prettyMembers indent rest

end

end CrateYard.Json
