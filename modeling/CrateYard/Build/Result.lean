import CrateYard.Build.Verdict
import CrateYard.Output.Event

/-! What a build hands out: one result at its end, and progress on the way. -/

namespace CrateYard.Build

open Json (Value)
open Output (Artifact)

structure Result where
  id : String
  succeeded : Bool
  canceled : Bool
  errors : UInt32
  warnings : UInt32
  message : String
  /-- Nothing unless the build succeeded. -/
  artifacts : List Artifact
deriving DecidableEq, Repr

inductive Progress where
  | started (id message : String)
  | progress (id message : String)
  | finished (id message : String) (succeeded canceled : Bool)
  | notification (id : String) (severity : Severity) (message : String)
deriving DecidableEq, Repr

def idText (build : Nat) : String :=
  "build-" ++ toString build

def Result.toJson (r : Result) : Value :=
  .record [("buildId", .text r.id), ("succeeded", .bool r.succeeded), ("canceled", .bool r.canceled),
    ("errorCount", .nat r.errors.toNat), ("warningCount", .nat r.warnings.toNat), ("message", .text r.message),
    ("artifacts", .ofList Artifact.toJson r.artifacts)]

namespace Progress

def id : Progress → String
  | .started id _ | .progress id _ | .finished id _ _ _ | .notification id _ _ => id

/-- The text that an event brings while the build runs. -/
def shown? : Progress → Option String
  | .progress _ message => some message
  | _ => none

def toJson : Progress → Value
  | .started id message => .tagged "Started" (.record [("build_id", .text id), ("message", .text message)])
  | .progress id message => .tagged "Progress" (.record [("build_id", .text id), ("message", .text message)])
  | .finished id message succeeded canceled =>
    .tagged "Finished" (.record [("build_id", .text id), ("message", .text message),
      ("succeeded", .bool succeeded), ("canceled", .bool canceled)])
  | .notification id severity message =>
    .tagged "Notification" (.record [("build_id", .text id), ("severity", .text severity.text),
      ("message", .text message)])

end Progress
end CrateYard.Build
