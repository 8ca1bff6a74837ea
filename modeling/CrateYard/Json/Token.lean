import CrateYard.Json.Value

/-! The lexemes of JSON, read by a machine that takes one character at a time. The machine refuses
every character that no lexeme can hold at its place: in particular a control character inside a string. -/

namespace CrateYard.Json

inductive Token where
  | openArray
  | closeArray
  | openObject
  | closeObject
  | comma
  | colon
  | scalar (v : Value)
deriving Repr, Inhabited

namespace Lexer

/-- The part of a string literal read so far, last character first. -/
structure Partial where
  reversed : List Char
  /-- A high surrogate that waits for its low one. -/
  high : Option Nat
  /-- No unpaired surrogate has been met. -/
  paired : Bool
deriving Repr, Inhabited

namespace Partial

def start : Partial := ⟨[], none, true⟩

/-- A character that is no surrogate follows: a waiting high surrogate stays unpaired. -/
def push (p : Partial) (c : Char) : Partial :=
  ⟨c :: p.reversed, none, p.paired && p.high.isNone⟩

/-- A code unit given by a hexadecimal escape follows. -/
def pushUnit (p : Partial) (unit : Nat) : Partial :=
  match p.high with
  | some high =>
    if 0xDC00 ≤ unit && unit ≤ 0xDFFF then
      ⟨Char.ofNat (0x10000 + (high - 0xD800) * 0x400 + (unit - 0xDC00)) :: p.reversed, none, p.paired⟩
    else ⟨p.reversed, none, false⟩
  | none =>
    if 0xDC00 ≤ unit && unit ≤ 0xDFFF then { p with paired := false }
    else if 0xD800 ≤ unit && unit ≤ 0xDBFF then { p with high := some unit }
    else ⟨Char.ofNat unit :: p.reversed, none, p.paired⟩

def literal (p : Partial) : Literal :=
  if p.paired && p.high.isNone then some (String.ofList p.reversed.reverse) else none

end Partial

/-- Where in a number the machine is; each place holds what has been read. -/
inductive Place where
  | sign
  | zero
  | whole
  | point
  | fraction
  | exponent
  | exponentSign
  | exponentDigits
deriving DecidableEq, Repr

/-- A number read so far; the digits of the fraction stand last first. -/
structure Digits where
  place : Place
  negative : Bool
  whole : Nat
  fraction : List (Fin 10)
  down : Bool
  power : Nat
deriving Repr

namespace Digits

/-- The number, if it may end here. -/
def number? (d : Digits) : Option Number :=
  match d.place with
  | .zero | .whole => some ⟨d.negative, d.whole, [], none⟩
  | .fraction => some ⟨d.negative, d.whole, d.fraction.reverse, none⟩
  | .exponentDigits =>
    some ⟨d.negative, d.whole, d.fraction.reverse, some (if d.down then -(d.power : Int) else d.power)⟩
  | _ => none

def digit? (c : Char) : Option (Fin 10) :=
  if h : 48 ≤ c.toNat ∧ c.toNat < 58 then some ⟨c.toNat - 48, by omega⟩ else none

/-- The number with one more character, if it can hold it. -/
def extend? (d : Digits) (c : Char) : Option Digits :=
  match d.place, digit? c with
  | .sign, some n => some { d with place := if n = 0 then .zero else .whole, whole := n }
  | .whole, some n => some { d with whole := 10 * d.whole + n }
  | .point, some n | .fraction, some n => some { d with place := .fraction, fraction := n :: d.fraction }
  | .exponent, some n | .exponentSign, some n | .exponentDigits, some n =>
    some { d with place := .exponentDigits, power := 10 * d.power + n }
  | .exponent, none =>
    if c = '+' then some { d with place := .exponentSign }
    else if c = '-' then some { d with place := .exponentSign, down := true }
    else none
  | .zero, none | .whole, none =>
    if c = '.' then some { d with place := .point }
    else if c = 'e' ∨ c = 'E' then some { d with place := .exponent }
    else none
  | .fraction, none => if c = 'e' ∨ c = 'E' then some { d with place := .exponent } else none
  | _, _ => none

end Digits

inductive Mode where
  | between
  | word (left : List Char) (v : Value)
  | string (p : Partial)
  | escape (p : Partial)
  | hex (p : Partial) (left : Nat) (unit : Nat)
  | number (d : Digits)
deriving Inhabited

structure State where
  mode : Mode
  tokens : List Token
deriving Inhabited

def hexDigit? (c : Char) : Option Nat :=
  let n := c.toNat
  if 48 ≤ n ∧ n ≤ 57 then some (n - 48)
  else if 65 ≤ n ∧ n ≤ 70 then some (n - 55)
  else if 97 ≤ n ∧ n ≤ 102 then some (n - 87)
  else none

/-- The character that a one-letter escape stands for. -/
def escaped? (c : Char) : Option Char :=
  match c with
  | '"' => some '"'
  | '\\' => some '\\'
  | '/' => some '/'
  | 'b' => some '\x08'
  | 'f' => some '\x0c'
  | 'n' => some '\n'
  | 'r' => some '\r'
  | 't' => some '\t'
  | _ => none

/-- A character outside every lexeme: white space, or the start of a lexeme. -/
def begin? (tokens : List Token) (c : Char) : Option State :=
  match c with
  | ' ' | '\n' | '\t' | '\r' => some ⟨.between, tokens⟩
  | '[' => some ⟨.between, .openArray :: tokens⟩
  | ']' => some ⟨.between, .closeArray :: tokens⟩
  | '\x7b' => some ⟨.between, .openObject :: tokens⟩
  | '\x7d' => some ⟨.between, .closeObject :: tokens⟩
  | ',' => some ⟨.between, .comma :: tokens⟩
  | ':' => some ⟨.between, .colon :: tokens⟩
  | '"' => some ⟨.string .start, tokens⟩
  | 'n' => some ⟨.word ['u', 'l', 'l'] .null, tokens⟩
  | 't' => some ⟨.word ['r', 'u', 'e'] (.bool true), tokens⟩
  | 'f' => some ⟨.word ['a', 'l', 's', 'e'] (.bool false), tokens⟩
  | '-' => some ⟨.number ⟨.sign, true, 0, [], false, 0⟩, tokens⟩
  | _ => ((⟨.sign, false, 0, [], false, 0⟩ : Digits).extend? c).map fun d => ⟨.number d, tokens⟩

def step (s : State) (c : Char) : Option State :=
  match s.mode with
  | .between => begin? s.tokens c
  | .word [] v => begin? (.scalar v :: s.tokens) c
  | .word (w :: left) v =>
    if c = w then
      if left.isEmpty then some ⟨.between, .scalar v :: s.tokens⟩ else some ⟨.word left v, s.tokens⟩
    else none
  | .string p =>
    if c = '"' then some ⟨.between, .scalar (.string p.literal) :: s.tokens⟩
    else if c = '\\' then some ⟨.escape p, s.tokens⟩
    else if c.toNat < 0x20 then none
    else some ⟨.string (p.push c), s.tokens⟩
  | .escape p =>
    if c = 'u' then some ⟨.hex p 3 0, s.tokens⟩
    else (escaped? c).map fun e => ⟨.string (p.push e), s.tokens⟩
  | .hex p left unit =>
    (hexDigit? c).map fun n =>
      match left with
      | 0 => ⟨.string (p.pushUnit (16 * unit + n)), s.tokens⟩
      | left + 1 => ⟨.hex p left (16 * unit + n), s.tokens⟩
  | .number d =>
    match d.extend? c with
    | some d => some ⟨.number d, s.tokens⟩
    | none => d.number?.bind fun n => begin? (.scalar (.number n) :: s.tokens) c

def State.finish? (s : State) : Option (List Token) :=
  match s.mode with
  | .between => some s.tokens.reverse
  | .word [] v => some (Token.scalar v :: s.tokens).reverse
  | .number d => d.number?.map fun n => (Token.scalar (.number n) :: s.tokens).reverse
  | _ => none

end Lexer

def Token.ofText? (text : List Char) : Option (List Token) :=
  (text.foldlM Lexer.step ⟨.between, []⟩).bind Lexer.State.finish?

end CrateYard.Json
