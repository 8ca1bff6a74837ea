/-! The end of a build: its state, how severe it is, and the words for it. Cancellation comes before failure, and
failure before diagnostics. Diagnostics are counted in words of 32 bits. -/

namespace CrateYard.Build

inductive State where
  | idle
  | waiting
  | running
  | succeeded
  | failed
  | canceled
deriving DecidableEq, Repr, Inhabited

inductive Severity where
  | info
  | warning
  | error
deriving DecidableEq, Repr

namespace State

def isFinal : State → Bool
  | .succeeded | .failed | .canceled => true
  | _ => false

def text : State → String
  | .idle => "Idle"
  | .waiting => "Waiting"
  | .running => "Running"
  | .succeeded => "Succeeded"
  | .failed => "Failed"
  | .canceled => "Canceled"

end State

def Severity.text : Severity → String
  | .info => "Info"
  | .warning => "Warning"
  | .error => "Error"

structure Verdict where
  state : State
  severity : Severity
  message : String
deriving DecidableEq, Repr

def tally (n : UInt32) (noun : String) : Option String :=
  if n = 0 then none
  else some (toString n.toNat ++ " " ++ noun ++ (if n = 1 then "" else "s"))

def verdict (canceled succeeded : Bool) (errors warnings : UInt32) : Verdict :=
  if canceled then ⟨.canceled, .info, "Build canceled"⟩
  else if !succeeded then ⟨.failed, .error, "Build failed"⟩
  else
    match (tally errors "error").toList ++ (tally warnings "warning").toList with
    | [] => ⟨.succeeded, .info, "Build finished"⟩
    | tallies => ⟨.succeeded, .warning, "Build finished with " ++ String.intercalate " and " tallies⟩

theorem verdict_isFinal (canceled succeeded : Bool) (errors warnings : UInt32) :
    (verdict canceled succeeded errors warnings).state.isFinal = true := by
  unfold verdict
  split
  · rfl
  · split
    · rfl
    · split <;> rfl

end CrateYard.Build
