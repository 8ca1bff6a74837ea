import CrateYard.Json.Record

/-! How fresh a part of a project is. Statuses have ranks, and merging keeps the more severe one. -/

namespace CrateYard

open Json (Value)

inductive Status where
  | current
  | stale
  | failed (reason : String)
deriving DecidableEq, Repr, Inhabited

namespace Status

def rank : Status → Nat
  | .current => 0
  | .stale => 1
  | .failed _ => 2

/-- The status of higher rank; of two that agree in it, the left one. -/
def merge (s t : Status) : Status :=
  if s.rank < t.rank then t else s

def mergeAll (statuses : List Status) : Status :=
  statuses.foldl merge .current

def reason? : Status → Option String
  | .failed reason => some reason
  | _ => none

def toJson : Status → Value
  | .current => .text "UpToDate"
  | .stale => .text "NeedsUpdate"
  | .failed reason => .tagged "UpdateFailed" (.text reason)

def ofJson? (v : Value) : Option Status := do
  let (tag, content) ← v.case?
  match tag, content with
  | "UpToDate", c => if Value.isUnit c then some .current else none
  | "NeedsUpdate", c => if Value.isUnit c then some .stale else none
  | "UpdateFailed", some c => return .failed (← c.text?)
  | _, _ => none

end Status
end CrateYard
