import CrateYard.Json.Value
import CrateYard.Package.Codec
import CrateYard.Table

/-! What a build prints, as events. -/

namespace CrateYard.Output

open Json (Value)

inductive Level where
  | error
  | warning
deriving DecidableEq, Repr

structure Location where
  file : Path
  line : Nat
  column : Nat
deriving DecidableEq, Repr

structure Diagnostic where
  level : Level
  message : String
  code : Option String
  packageId : Option String
  location : Option Location
  /-- The text as the compiler would print it. -/
  rendered : Option String
deriving DecidableEq, Repr

structure TargetRef where
  packageId : String
  targetName : String
  kind : List String
deriving DecidableEq, Repr

structure Artifact where
  target : TargetRef
  filenames : List Path
  executable : Option Path
  fresh : Bool
deriving DecidableEq, Repr

inductive Event where
  | output (text : String)
  | diagnostic (d : Diagnostic)
  | artifact (a : Artifact)
  | scriptExecuted (packageId : String)
  | finished (success : Bool)
deriving DecidableEq, Repr

/-- How many errors and warnings have been met. -/
structure Counts where
  errors : Nat
  warnings : Nat
deriving DecidableEq, Repr, Inhabited

/-- The latest artifact of each target. -/
abbrev Artifacts := Table TargetRef Artifact

namespace Level

def text : Level → String
  | .error => "Error"
  | .warning => "Warning"

def ofName? : String → Option Level
  | "error" | "error: internal compiler error" => some .error
  | "warning" => some .warning
  | _ => none

end Level

namespace Counts

def zero : Counts := ⟨0, 0⟩

def add (c : Counts) : Level → Counts
  | .error => { c with errors := c.errors + 1 }
  | .warning => { c with warnings := c.warnings + 1 }

end Counts

namespace TargetRef

def leName (a b : TargetRef) : Bool :=
  match compare a.packageId b.packageId with
  | .lt => true
  | .gt => false
  | .eq => (compare a.targetName b.targetName).isLE

/-- The order of targets by package, then name, then kinds. -/
def le (a b : TargetRef) : Bool :=
  if a.packageId = b.packageId ∧ a.targetName = b.targetName then (compare a.kind b.kind).isLE
  else leName a b

def toJson (k : TargetRef) : Value :=
  .record [("package_id", .text k.packageId), ("target_name", .text k.targetName),
    ("kind", .texts k.kind)]

end TargetRef

def Location.toJson (l : Location) : Value :=
  .record [("file", l.file.toJson), ("line", .nat l.line), ("column", .nat l.column)]

def Diagnostic.toJson (d : Diagnostic) : Value :=
  .record [("level", .text d.level.text), ("message", .text d.message), ("code", .ofOption .text d.code),
    ("package_id", .ofOption .text d.packageId), ("location", .ofOption Location.toJson d.location),
    ("rendered", .ofOption .text d.rendered)]

def Artifact.toJson (a : Artifact) : Value :=
  .record [("target", a.target.toJson), ("filenames", .ofList Path.toJson a.filenames),
    ("executable", .ofOption Path.toJson a.executable), ("fresh", .bool a.fresh)]

/-- Artifacts by package and target name; those that agree in both keep their order. -/
def Artifact.listed (artifacts : List Artifact) : List Artifact :=
  artifacts.mergeSort fun a b => TargetRef.leName a.target b.target

/-- Artifacts by package, target name and kinds. -/
def Artifact.sorted (artifacts : List Artifact) : List Artifact :=
  artifacts.mergeSort fun a b => TargetRef.le a.target b.target

def Event.toJson : Event → Value
  | .output text => .tagged "Output" (.text text)
  | .diagnostic d => .tagged "Diagnostic" d.toJson
  | .artifact a => .tagged "Artifact" a.toJson
  | .scriptExecuted id => .tagged "BuildScriptExecuted" (.record [("package_id", .text id)])
  | .finished success => .tagged "Finished" (.record [("success", .bool success)])

end CrateYard.Output
