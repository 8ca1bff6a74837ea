import CrateYard.Json.Value
import CrateYard.Text.Blank
import CrateYard.Text.Split
import CrateYard.Version

/-! The compiler's description of itself: lines of a key, a colon and a value. -/

namespace CrateYard

open Json (Value)

inductive Channel where
  | stable
  | beta
  | nightly
  | dev
deriving DecidableEq, Repr, Inhabited

structure Compiler where
  version : Version
  channel : Channel
  host : String
  commitHash : Option String
deriving DecidableEq, Repr

namespace Channel

def text : Channel → String
  | .stable => "Stable"
  | .beta => "Beta"
  | .nightly => "Nightly"
  | .dev => "Dev"

def ofPreRelease (pre : String) : Channel :=
  if pre.isEmpty then .stable
  else if "beta".toList.isPrefixOf pre.toList then .beta
  else if "nightly".toList.isPrefixOf pre.toList then .nightly
  else .dev

end Channel

namespace Compiler

/-- The key and the value of a line, without blanks around them. -/
def pair? (line : List Char) : Option (String × String) :=
  (Text.splitOnce ':' line).map fun (key, value) =>
    (String.ofList (Text.trim key), String.ofList (Text.trim value))

def pairs (text : String) : List (String × String) :=
  (Text.lines text.toList).filterMap pair?

def valuesOf (key : String) (pairs : List (String × String)) : List String :=
  (pairs.filter fun x => x.1 = key).map (·.2)

/-- The description in a text. Of several lines with one key the last counts; an unknown commit hash does not. -/
def parse? (text : String) : Option Compiler := do
  let pairs := pairs text
  let version ← (valuesOf "release" pairs).getLast?.bind Version.parse?
  let host ← (valuesOf "host" pairs).getLast?
  return { version := version
           channel := .ofPreRelease version.pre
           host := host
           commitHash := ((valuesOf "commit-hash" pairs).filter (· ≠ "unknown")).getLast? }

def toJson (c : Compiler) : Value :=
  .record [("version", .text c.version.render), ("channel", .text c.channel.text), ("host", .text c.host),
    ("commit_hash", .ofOption .text c.commitHash)]

end Compiler
end CrateYard
