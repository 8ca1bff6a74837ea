/-! JSON values as a document spells them: members keep their order and may repeat, and a string whose
escapes name an unpaired surrogate is kept as one that has no text. -/

namespace CrateYard.Json

/-- A number as it is written: sign, whole part, the digits after the point and the exponent. -/
structure Number where
  negative : Bool
  whole : Nat
  fraction : List (Fin 10)
  exponent : Option Int
deriving DecidableEq, Repr

/-- A string literal: its text, or nothing when an escape names an unpaired surrogate. -/
abbrev Literal := Option String

inductive Value where
  | null
  | bool (b : Bool)
  | number (n : Number)
  | string (s : Literal)
  | array (items : List Value)
  | object (members : List (Literal × Value))
deriving Repr, Inhabited

namespace Value

def text (s : String) : Value :=
  .string (some s)

def nat (n : Nat) : Value :=
  .number ⟨false, n, [], none⟩

def record (fields : List (String × Value)) : Value :=
  .object (fields.map fun field => (some field.1, field.2))

def tagged (tag : String) (content : Value) : Value :=
  record [(tag, content)]

/-- `null` for nothing. -/
def ofOption (f : α → Value) : Option α → Value
  | none => .null
  | some a => f a

def ofList (f : α → Value) (items : List α) : Value :=
  .array (items.map f)

def texts (items : List String) : Value :=
  ofList text items

/-- The member with this name, if the value is an object that has one; of several, the last. -/
def member? (v : Value) (name : String) : Option Value :=
  match v with
  | .object members => (members.reverse.find? fun m => m.1 = some name).map (·.2)
  | _ => none

end Value
end CrateYard.Json
