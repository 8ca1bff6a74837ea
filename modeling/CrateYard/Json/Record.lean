import CrateYard.Json.Value

/-! Records in JSON. A record is an object, or an array that lists the fields in their order. In an object
members with other names are skipped and a field must not repeat; an array must not be longer than the
record, and one that is shorter leaves out only fields that have a default. -/

namespace CrateYard.Json

/-- How a field is given: with a value, not at all, or cut off by the end of an array. -/
inductive Presence where
  | given (v : Value)
  | absent
  | cut

/-- What a value is read from: a text, or a document that has been read before. -/
inductive Form where
  | text
  | document
deriving DecidableEq, Repr

structure Record where
  presence : String → Presence

namespace Record

/-- The members of an object as a record: every name has a text, and no field is given twice. -/
def ofMembers? (fields : List String) (members : List (Literal × Value)) : Option Record :=
  if (members.all fun m => m.1.isSome) &&
      (fields.all fun f => (members.filter fun m => m.1 = some f).length ≤ 1) then
    some ⟨fun f => match members.find? fun m => m.1 = some f with
      | some m => .given m.2
      | none => .absent⟩
  else none

/-- The items of an array as a record. -/
def ofItems? (fields : List String) (items : List Value) : Option Record :=
  if items.length ≤ fields.length then
    some ⟨fun f => match items[fields.idxOf f]? with
      | some v => .given v
      | none => .cut⟩
  else none

def ofValue? (fields : List String) : Value → Option Record
  | .object members => ofMembers? fields members
  | .array items => ofItems? fields items
  | _ => none

/-- A record that only an object may write. -/
def ofObject? (fields : List String) : Value → Option Record
  | .object members => ofMembers? fields members
  | _ => none

/-- The fields of a case: in a text they are written like any record, in a document only as an object. -/
def ofContent? : Form → List String → Value → Option Record
  | .text => ofValue?
  | .document => ofObject?

def required (r : Record) (field : String) (read : Value → Option α) : Option α :=
  match r.presence field with
  | .given v => read v
  | _ => none

def optional (r : Record) (field : String) (read : Value → Option α) : Option (Option α) :=
  match r.presence field with
  | .given .null => some none
  | .given v => (read v).map some
  | .absent => some none
  | .cut => none

/-- A field that takes a default when it is not given. -/
def defaulted (r : Record) (field : String) (read : Value → Option α) (default : α) : Option α :=
  match r.presence field with
  | .given v => read v
  | _ => some default

end Record

namespace Value

def text? : Value → Option String
  | .string s => s
  | _ => none

def bool? : Value → Option Bool
  | .bool b => some b
  | _ => none

/-- A natural number below `bound`, written as an integer without a sign. -/
def nat? (bound : Nat) : Value → Option Nat
  | .number ⟨false, whole, [], none⟩ => if whole < bound then some whole else none
  | _ => none

def word64? : Value → Option Nat :=
  nat? (Nat.pow 2 64)

def word32? : Value → Option Nat :=
  nat? (Nat.pow 2 32)

def list? (read : Value → Option α) : Value → Option (List α)
  | .array items => items.mapM read
  | _ => none

/-- `null` for nothing. -/
def option? (read : Value → Option α) : Value → Option (Option α)
  | .null => some none
  | v => (read v).map some

/-- A case of a sum: its name alone, or an object whose one member holds the content. -/
def case? : Value → Option (String × Option Value)
  | .string (some tag) => some (tag, none)
  | .object [(some tag, content)] => some (tag, some content)
  | _ => none

/-- A case without content is written as its name, or with `null` as its content. -/
def isUnit : Option Value → Bool
  | none | some .null => true
  | _ => false

end Value
end CrateYard.Json
