import CrateYard.Output.Event
import CrateYard.Text.Blank
import CrateYard.Text.Split
import CrateYard.Text.Word

/-! Diagnostics in plain text. A diagnostic is a level, perhaps a code in brackets, a colon, a blank and a message on
the same line; the compiler's summaries have the same form and are told apart by what they say. -/

namespace CrateYard.Output

open Text (dropPrefix?)

/-- The level that a text begins with, and what follows it. -/
def level? (text : List Char) : Option (Level × List Char) :=
  match dropPrefix? "error".toList text with
  | some rest => some (.error, rest)
  | none => (dropPrefix? "warning".toList text).map fun rest => (.warning, rest)

/-- The rest of a text that begins with at least one decimal digit. -/
def dropDecimals? (text : List Char) : Option (List Char) :=
  match text with
  | c :: rest => if Text.isDecimal c then some (rest.dropWhile Text.isDecimal) else none
  | [] => none

/-- The text begins with `generated`, a number and `warning`. -/
def saysGenerated (text : List Char) : Bool :=
  match (dropPrefix? "generated ".toList text).bind dropDecimals? with
  | some rest => (dropPrefix? " warning".toList rest).isSome
  | none => false

/-- `saysGenerated` at some place of the first line. -/
def mentionsGenerated : List Char → Bool
  | [] => false
  | c :: rest => saysGenerated (c :: rest) || (c ≠ '\n' && mentionsGenerated rest)

/-- The text begins with a number and `warning emitted` or `warnings emitted`. -/
def saysEmitted (text : List Char) : Bool :=
  match (dropDecimals? text).bind (dropPrefix? " warning".toList) with
  | some rest =>
    (dropPrefix? " emitted".toList rest).isSome || (dropPrefix? "s emitted".toList rest).isSome
  | none => false

/-- What follows the level and the colon of a summary. -/
def isSummaryBody (body : List Char) : Bool :=
  mentionsGenerated body || saysEmitted body ||
    (dropPrefix? "aborting due to".toList body).isSome ||
    (dropPrefix? "could not compile".toList body).isSome ||
    (dropPrefix? "build failed".toList body).isSome

def isSummary (text : List Char) : Bool :=
  match (level? text).bind fun x => dropPrefix? ": ".toList x.2 with
  | some body => isSummaryBody body
  | none => false

/-- A code in brackets, if the text begins with one, and what follows it. -/
def bracketed (text : List Char) : Option (List Char) × List Char :=
  match text with
  | '[' :: rest =>
    let code := rest.takeWhile Text.isWord
    match rest.dropWhile Text.isWord with
    | ']' :: after => if code.isEmpty then (none, text) else (some code, after)
    | _ => (none, text)
  | _ => (none, text)

def plainDiagnostic? (text : List Char) : Option Diagnostic :=
  if isSummary text then none
  else
    (level? text).bind fun (level, rest) =>
      let (code, rest) := bracketed rest
      (dropPrefix? ": ".toList rest).bind fun message =>
        if message.contains '\n' then none
        else some
          { level := level
            message := String.ofList message
            code := code.map String.ofList
            packageId := none
            location := none
            rendered := none }

def isProgressBar (text : List Char) : Bool :=
  match dropPrefix? "Building [".toList (Text.trimStart text) with
  | some rest => (rest.dropWhile fun c => c = '=' || c = '>' || c = ' ').head? = some ']'
  | none => false

end CrateYard.Output
