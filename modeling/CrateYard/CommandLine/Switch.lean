import CrateYard.Text.Split

/-! Switches on a command line. A long switch follows two dashes and a short one a single dash; a value stands behind
an equals sign, right behind a short switch, or in the next word, where it must not look like a switch. Two dashes
alone end the switches. -/

namespace CrateYard.CommandLine

structure Switch where
  long : String
  short : Option Char
  hasValue : Bool
deriving DecidableEq, Repr

/-- A word that has been read: a switch with its value, or an operand. -/
inductive Item where
  | switch (long : String) (value : String)
  | operand (text : String)
deriving DecidableEq, Repr

def isDashed (word : String) : Bool :=
  match word.toList with
  | '-' :: _ :: _ => true
  | _ => false

/-- A switch in a word, and the value that the word gives it. -/
inductive Match where
  | found (s : Switch) (value : Option String)
  | unknown

def matchLong (switches : List Switch) (name : String) (value : Option String) : Match :=
  match switches.find? fun s => s.long = name with
  | some s => .found s value
  | none => .unknown

/-- The switch that a dashed word names. -/
def matchWord (switches : List Switch) (word : String) : Match :=
  match word.toList with
  | '-' :: '-' :: rest =>
    match Text.splitOnce '=' rest with
    | some (name, value) => matchLong switches (String.ofList name) (some (String.ofList value))
    | none => matchLong switches (String.ofList rest) none
  | '-' :: short :: rest =>
    match switches.find? fun s => s.short = some short with
    | some s =>
      match rest with
      | [] => .found s none
      | '=' :: value => .found s (some (String.ofList value))
      | value => .found s (some (String.ofList value))
    | none => .unknown
  | _ => .unknown

/-- Reads words to their end. Where a `subcommand` is expected, its name ends them, what follows it is left, and there
are no other operands. Nothing if a switch is not understood, lacks its value or has one that it does not take. -/
def readWords (switches : List Switch) (subcommand : Bool) : List String → Option (List Item × List String)
  | [] => some ([], [])
  | "--" :: rest => if subcommand then none else some (rest.map .operand, [])
  | word :: rest =>
    if isDashed word then
      match matchWord switches word with
      | .unknown => none
      | .found s value =>
        if s.hasValue then
          match value, rest with
          | some value, rest => (readWords switches subcommand rest).map fun r => (.switch s.long value :: r.1, r.2)
          | none, next :: rest =>
            if isDashed next then none
            else (readWords switches subcommand rest).map fun r => (.switch s.long next :: r.1, r.2)
          | none, [] => none
        else if value.isSome then none
        else (readWords switches subcommand rest).map fun r => (.switch s.long "" :: r.1, r.2)
    else if subcommand then some ([.operand word], rest)
    else (readWords switches subcommand rest).map fun r => (.operand word :: r.1, r.2)

def operands (items : List Item) : List String :=
  items.filterMap fun
    | .operand text => some text
    | _ => none

def valuesOf (long : String) (items : List Item) : List String :=
  items.filterMap fun
    | .switch name value => if name = long then some value else none
    | _ => none

/-- The value of a switch that may be given once. -/
def atMostOnce (long : String) (items : List Item) : Option (Option String) :=
  match valuesOf long items with
  | [] => some none
  | [value] => some (some value)
  | _ => none

end CrateYard.CommandLine
