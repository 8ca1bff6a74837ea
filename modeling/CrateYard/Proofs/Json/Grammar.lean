import CrateYard.Json.Value
import Mathlib.Data.List.Basic

/-! The grammar of JSON texts: lexemes as data that cannot be ill-formed, each with its characters and what it stands
for, and values as a relation over them. Every value has a text. Nothing is said of how a text is
read. -/

namespace CrateYard.Json

/-- A character of white space. -/
inductive Blank where
  | space
  | newline
  | tab
  | carriageReturn
deriving DecidableEq, Repr

def Blank.char : Blank → Char
  | .space => ' '
  | .newline => '\n'
  | .tab => '\t'
  | .carriageReturn => '\r'

/-- White space, as much as there may be between two lexemes. -/
def gap (blanks : List Blank) : List Char :=
  blanks.map Blank.char

/-! Strings. -/

/-- An escape of one letter. -/
inductive Escape where
  | quote
  | backslash
  | slash
  | backspace
  | formFeed
  | newline
  | carriageReturn
  | tab
deriving DecidableEq, Repr

namespace Escape

def letter : Escape → Char
  | quote => '"'
  | backslash => '\\'
  | slash => '/'
  | backspace => 'b'
  | formFeed => 'f'
  | newline => 'n'
  | carriageReturn => 'r'
  | tab => 't'

def char : Escape → Char
  | quote => '"'
  | backslash => '\\'
  | slash => '/'
  | backspace => '\x08'
  | formFeed => '\x0c'
  | newline => '\n'
  | carriageReturn => '\r'
  | tab => '\t'

end Escape

structure HexDigit where
  value : Fin 16
  /-- A letter is written as a capital. -/
  isCapital : Bool
deriving DecidableEq, Repr

def HexDigit.char (d : HexDigit) : Char :=
  if d.value.val < 10 then Char.ofNat (48 + d.value)
  else if d.isCapital then Char.ofNat (55 + d.value) else Char.ofNat (87 + d.value)

/-- A piece of a string: a character as it is, an escape, or the number of a code unit. -/
inductive Piece where
  | plain (c : Char) (h : 0x20 ≤ c.toNat ∧ c ≠ '"' ∧ c ≠ '\\')
  | escape (e : Escape)
  | unit (first second third fourth : HexDigit)

/-- What a piece stands for: a character, or one half of a surrogate pair. -/
inductive Part where
  | char (c : Char)
  | high (n : Nat)
  | low (n : Nat)
deriving DecidableEq, Repr

namespace Part

def ofUnit (unit : Nat) : Part :=
  if 0xD800 ≤ unit ∧ unit < 0xDC00 then .high (unit - 0xD800)
  else if 0xDC00 ≤ unit ∧ unit < 0xE000 then .low (unit - 0xDC00)
  else .char (Char.ofNat unit)

/-- The text that is put together of parts, if every half stands in a pair. -/
def text? : List Part → Option (List Char)
  | [] => some []
  | .char c :: rest => (text? rest).map (c :: ·)
  | .high n :: .low m :: rest => (text? rest).map (Char.ofNat (0x10000 + n * 0x400 + m) :: ·)
  | _ => none

end Part

namespace Piece

def chars : Piece → List Char
  | plain c _ => [c]
  | escape e => ['\\', e.letter]
  | unit first second third fourth => ['\\', 'u', first.char, second.char, third.char, fourth.char]

def part : Piece → Part
  | plain c _ => .char c
  | escape e => .char e.char
  | unit first second third fourth =>
    .ofUnit (16 * (16 * (16 * first.value + second.value) + third.value) + fourth.value)

def quoted (pieces : List Piece) : List Char :=
  '"' :: pieces.flatMap chars ++ ['"']

def literal (pieces : List Piece) : Literal :=
  (Part.text? (pieces.map part)).map String.ofList

end Piece

/-! Numbers. -/

def digitChar (d : Fin 10) : Char :=
  Char.ofNat (48 + d)

def row (digits : List (Fin 10)) : List Char :=
  digits.map digitChar

/-- The number that digits write after those of another one. -/
def decimal (digits : List (Fin 10)) (before : Nat) : Nat :=
  digits.foldl (fun n d => 10 * n + d.val) before

inductive Sign where
  | none
  | plus
  | minus
deriving DecidableEq, Repr

def Sign.chars : Sign → List Char
  | .none => []
  | .plus => ['+']
  | .minus => ['-']

structure Exponent where
  isCapital : Bool
  sign : Sign
  first : Fin 10
  rest : List (Fin 10)
deriving DecidableEq, Repr

namespace Exponent

def chars (e : Exponent) : List Char :=
  (if e.isCapital then 'E' else 'e') :: (e.sign.chars ++ row (e.first :: e.rest))

def value (e : Exponent) : Int :=
  if e.sign = .minus then -(decimal (e.first :: e.rest) 0 : Int) else decimal (e.first :: e.rest) 0

end Exponent

/-- A number: its whole part has no zero in front, and without a fraction there is no point. -/
structure Numeral where
  isNegative : Bool
  first : Fin 10
  rest : List (Fin 10)
  fraction : List (Fin 10)
  exponent : Option Exponent
  rest_of_zero : first.val = 0 → rest = []

namespace Numeral

def digit (d : Fin 10) : Numeral :=
  ⟨false, d, [], [], none, fun _ => rfl⟩

def fractionChars (n : Numeral) : List Char :=
  match n.fraction with
  | [] => []
  | digits => '.' :: row digits

def exponentChars (n : Numeral) : List Char :=
  match n.exponent with
  | none => []
  | some e => e.chars

def unsigned (n : Numeral) : List Char :=
  row (n.first :: n.rest) ++ (n.fractionChars ++ n.exponentChars)

def chars (n : Numeral) : List Char :=
  if n.isNegative then '-' :: n.unsigned else n.unsigned

def number (n : Numeral) : Number :=
  ⟨n.isNegative, decimal (n.first :: n.rest) 0, n.fraction, n.exponent.map Exponent.value⟩

end Numeral

/-! Values. -/

/-- A text for a value, and the white space around it. -/
structure Item where
  before : List Blank
  text : List Char
  value : Value
  after : List Blank

def Item.chars (i : Item) : List Char :=
  gap i.before ++ (i.text ++ gap i.after)

/-- A name and a value, and the white space around them. -/
structure Member where
  before : List Blank
  name : List Piece
  after : List Blank
  item : Item

namespace Member

def chars (m : Member) : List Char :=
  gap m.before ++ (Piece.quoted m.name ++ (gap m.after ++ ':' :: m.item.chars))

def entry (m : Member) : Literal × Value :=
  (Piece.literal m.name, m.item.value)

end Member

def commas (texts : List (List Char)) : List Char :=
  [','].intercalate texts

inductive Spelling : List Char → Value → Prop where
  | null : Spelling "null".toList .null
  | true : Spelling "true".toList (.bool .true)
  | false : Spelling "false".toList (.bool .false)
  | number (n : Numeral) : Spelling n.chars (.number n.number)
  | string (pieces : List Piece) : Spelling (Piece.quoted pieces) (.string (Piece.literal pieces))
  | emptyArray (blanks : List Blank) : Spelling ('[' :: gap blanks ++ [']']) (.array [])
  | array {items : List Item} (hne : items ≠ []) (h : ∀ i ∈ items, Spelling i.text i.value) :
    Spelling ('[' :: commas (items.map Item.chars) ++ [']']) (.array (items.map Item.value))
  | emptyObject (blanks : List Blank) : Spelling ('\x7b' :: gap blanks ++ ['\x7d']) (.object [])
  | object {members : List Member} (hne : members ≠ []) (h : ∀ m ∈ members, Spelling m.item.text m.item.value) :
    Spelling ('\x7b' :: commas (members.map Member.chars) ++ ['\x7d']) (.object (members.map Member.entry))

/-- The text is that of a document: a value, and perhaps white space around it. -/
def IsDocument (text : String) (v : Value) : Prop :=
  ∃ i : Item, Spelling i.text i.value ∧ text.toList = i.chars ∧ v = i.value

/-! Every value has a text. -/

theorem exists_row (n : Nat) :
    ∃ (first : Fin 10) (rest : List (Fin 10)), (first.val = 0 → rest = []) ∧ decimal (first :: rest) 0 = n := by
  induction n using Nat.strongRecOn with
  | ind n ih =>
    by_cases hn : n < 10
    · exact ⟨⟨n, hn⟩, [], fun _ => rfl, by simp [decimal]⟩
    · obtain ⟨first, rest, hzero, hvalue⟩ := ih (n / 10) (by omega)
      refine ⟨first, rest ++ [⟨n % 10, Nat.mod_lt n (by omega)⟩], fun hfirst => ?_, ?_⟩
      · -- a row of zeros is no more than zero
        simp only [hzero hfirst, decimal, List.foldl_cons, List.foldl_nil, hfirst] at hvalue
        omega
      · rw [← List.cons_append, decimal, List.foldl_append]
        change 10 * decimal (first :: rest) 0 + n % 10 = n
        omega

theorem exists_exponent (e : Int) : ∃ exponent : Exponent, exponent.value = e := by
  obtain ⟨first, rest, -, hvalue⟩ := exists_row e.natAbs
  by_cases he : e < 0
  · refine ⟨⟨false, .minus, first, rest⟩, ?_⟩
    simp only [Exponent.value, hvalue, if_true]
    omega
  · refine ⟨⟨false, .none, first, rest⟩, ?_⟩
    simp only [Exponent.value, hvalue, reduceCtorEq, if_false]
    omega

theorem exists_numeral (n : Number) : ∃ numeral : Numeral, numeral.number = n := by
  obtain ⟨negative, whole, fraction, exponent⟩ := n
  obtain ⟨first, rest, hzero, hwhole⟩ := exists_row whole
  cases exponent with
  | none => exact ⟨⟨negative, first, rest, fraction, none, hzero⟩, by simp [Numeral.number, hwhole]⟩
  | some e =>
    obtain ⟨exponent, he⟩ := exists_exponent e
    exact ⟨⟨negative, first, rest, fraction, some exponent, hzero⟩, by simp [Numeral.number, hwhole, he]⟩

theorem exists_piece (c : Char) : ∃ piece : Piece, piece.part = .char c := by
  by_cases hquote : c = '"'
  · exact ⟨.escape .quote, by rw [hquote]; rfl⟩
  by_cases hslash : c = '\\'
  · exact ⟨.escape .backslash, by rw [hslash]; rfl⟩
  by_cases hcontrol : 0x20 ≤ c.toNat
  · exact ⟨.plain c ⟨hcontrol, hquote, hslash⟩, rfl⟩
  · refine ⟨.unit ⟨0, false⟩ ⟨0, false⟩ ⟨⟨c.toNat / 16, by omega⟩, false⟩ ⟨⟨c.toNat % 16, by omega⟩, false⟩, ?_⟩
    have hunit : 16 * (c.toNat / 16) + c.toNat % 16 = c.toNat := Nat.div_add_mod ..
    have hhigh : ¬ 0xD800 ≤ c.toNat := by omega
    have hlow : ¬ 0xDC00 ≤ c.toNat := by omega
    simp [Piece.part, Part.ofUnit, hunit, hhigh, hlow]

theorem exists_pieces (s : Literal) : ∃ pieces, Piece.literal pieces = s := by
  cases s with
  | none => exact ⟨[.unit ⟨13, false⟩ ⟨8, false⟩ ⟨0, false⟩ ⟨0, false⟩], rfl⟩
  | some s =>
    have hpieces : ∀ text : List Char, ∃ pieces : List Piece, Part.text? (pieces.map Piece.part) = some text := by
      intro text
      induction text with
      | nil => exact ⟨[], rfl⟩
      | cons c rest ih =>
        obtain ⟨piece, hpiece⟩ := exists_piece c
        obtain ⟨pieces, hrest⟩ := ih
        exact ⟨piece :: pieces, by rw [List.map_cons, hpiece, Part.text?, hrest, Option.map_some]⟩
    obtain ⟨pieces, h⟩ := hpieces s.toList
    exact ⟨pieces, by rw [Piece.literal, h, Option.map_some, String.ofList_toList]⟩

mutual

theorem exists_spelling : ∀ v : Value, ∃ text, Spelling text v
  | .null => ⟨_, .null⟩
  | .bool true => ⟨_, .true⟩
  | .bool false => ⟨_, .false⟩
  | .number n => by
    obtain ⟨numeral, rfl⟩ := exists_numeral n
    exact ⟨_, .number numeral⟩
  | .string s => by
    obtain ⟨pieces, rfl⟩ := exists_pieces s
    exact ⟨_, .string pieces⟩
  | .array [] => ⟨_, .emptyArray []⟩
  | .array (v :: rest) => by
    obtain ⟨items, hitems, hspelling⟩ := exists_items (v :: rest)
    have hne : items ≠ [] := fun h => List.cons_ne_nil v rest (by rw [← hitems, h, List.map_nil])
    rw [← hitems]
    exact ⟨_, .array hne hspelling⟩
  | .object [] => ⟨_, .emptyObject []⟩
  | .object (m :: rest) => by
    obtain ⟨members, hmembers, hspelling⟩ := exists_members (m :: rest)
    have hne : members ≠ [] := fun h => List.cons_ne_nil m rest (by rw [← hmembers, h, List.map_nil])
    rw [← hmembers]
    exact ⟨_, .object hne hspelling⟩

theorem exists_items : ∀ values : List Value,
    ∃ items : List Item, items.map Item.value = values ∧ ∀ i ∈ items, Spelling i.text i.value
  | [] => ⟨[], rfl, nofun⟩
  | v :: rest => by
    obtain ⟨text, htext⟩ := exists_spelling v
    obtain ⟨items, hitems, hspelling⟩ := exists_items rest
    exact ⟨⟨[], text, v, []⟩ :: items, by rw [List.map_cons, hitems], List.forall_mem_cons.2 ⟨htext, hspelling⟩⟩

theorem exists_members : ∀ entries : List (Literal × Value),
    ∃ members : List Member, members.map Member.entry = entries ∧ ∀ m ∈ members, Spelling m.item.text m.item.value
  | [] => ⟨[], rfl, nofun⟩
  | (name, v) :: rest => by
    obtain ⟨pieces, hpieces⟩ := exists_pieces name
    obtain ⟨text, htext⟩ := exists_spelling v
    obtain ⟨members, hmembers, hspelling⟩ := exists_members rest
    exact ⟨⟨[], pieces, [], ⟨[], text, v, []⟩⟩ :: members, by rw [List.map_cons, hmembers, Member.entry, hpieces],
      List.forall_mem_cons.2 ⟨htext, hspelling⟩⟩

end

theorem exists_document (v : Value) : ∃ text, IsDocument text v := by
  obtain ⟨text, h⟩ := exists_spelling v
  exact ⟨String.ofList text, ⟨[], text, v, []⟩, h, by simp [Item.chars, gap], rfl⟩

end CrateYard.Json
