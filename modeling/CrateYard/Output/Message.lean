import CrateYard.Json.Limits
import CrateYard.Json.Reader
import CrateYard.Json.Record
import CrateYard.Output.Event
import CrateYard.Text.Blank

/-! The machine records that the build tool prints, one on a line. A record is a JSON object whose member
`reason` names what it reports. -/

namespace CrateYard.Output

open Json (Value Record Literal)

structure Span where
  file : String
  line : Nat
  column : Nat
  isPrimary : Bool
deriving DecidableEq, Repr

/-- A diagnostic as the compiler reports it. -/
structure Report where
  message : String
  level : String
  code : Option String
  rendered : Option String
  spans : List Span
deriving DecidableEq, Repr

structure Built where
  packageId : String
  name : String
  kind : List String
  crateTypes : List String
  filenames : List Path
  executable : Option Path
  fresh : Bool
deriving DecidableEq, Repr

inductive Message where
  | compiler (packageId : String) (report : Report)
  | artifact (built : Built)
  | scriptExecuted (packageId : String)
  | finished (success : Bool)
deriving DecidableEq, Repr

namespace Span

def ofJson? (v : Value) : Option Span := do
  let r ← Record.ofValue? ["file_name", "line_start", "column_start", "is_primary"] v
  return { file := ← r.required "file_name" Value.text?
           line := ← r.required "line_start" Value.word32?
           column := ← r.required "column_start" Value.word32?
           isPrimary := ← r.defaulted "is_primary" Value.bool? false }

end Span

namespace Report

def codeOfJson? (v : Value) : Option String := do
  let r ← Record.ofValue? ["code"] v
  r.required "code" Value.text?

def ofJson? (v : Value) : Option Report := do
  let r ← Record.ofValue? ["message", "level", "code", "rendered", "spans"] v
  return { message := ← r.required "message" Value.text?
           level := ← r.required "level" Value.text?
           code := ← r.optional "code" codeOfJson?
           rendered := ← r.optional "rendered" Value.text?
           spans := ← r.defaulted "spans" (Value.list? Span.ofJson?) [] }

end Report

namespace Built

def targetOfJson? (v : Value) : Option (String × List String × List String) := do
  let r ← Record.ofValue? ["name", "kind", "crate_types"] v
  return (← r.required "name" Value.text?, ← r.defaulted "kind" (Value.list? Value.text?) [],
    ← r.defaulted "crate_types" (Value.list? Value.text?) [])

def ofMembers? (members : List (Literal × Value)) : Option Built := do
  let r ← Record.ofMembers? ["package_id", "target", "filenames", "executable", "fresh"] members
  let packageId ← r.required "package_id" Value.text?
  let (name, kind, crateTypes) ← r.required "target" targetOfJson?
  return { packageId := packageId
           name := name
           kind := kind
           crateTypes := crateTypes
           filenames := ← r.defaulted "filenames" (Value.list? Path.ofJson?) []
           executable := ← r.optional "executable" Path.ofJson?
           fresh := ← r.defaulted "fresh" Value.bool? false }

end Built

namespace Message

/-- The record that a reason announces, from the other members. -/
def ofMembers? (reason : String) (members : List (Literal × Value)) : Option Message :=
  match reason with
  | "compiler-message" => do
    let r ← Record.ofMembers? ["package_id", "message"] members
    return .compiler (← r.required "package_id" Value.text?) (← r.required "message" Report.ofJson?)
  | "compiler-artifact" => (Built.ofMembers? members).map .artifact
  | "build-script-executed" => do
    let r ← Record.ofMembers? ["package_id"] members
    return .scriptExecuted (← r.required "package_id" Value.text?)
  | "build-finished" => do
    let r ← Record.ofMembers? ["success"] members
    return .finished (← r.required "success" Value.bool?)
  | _ => none

/-- The record of an object that has exactly one reason. -/
def ofJson? : Value → Option Message
  | .object members =>
    match members.filter fun m => m.1 = some "reason" with
    | [(_, .string (some reason))] => ofMembers? reason (members.filter fun m => m.1 ≠ some "reason")
    | _ => none
  | _ => none

def parse? (line : String) : Option Message :=
  if (Text.trimStart line.toList).head? = some '\x7b' then
    match Value.parse? line with
    | some v => if v.isBuildable then ofJson? v else none
    | none => none
  else none

end Message
end CrateYard.Output
