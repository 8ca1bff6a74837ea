import CrateYard.CommandLine.Switch
import CrateYard.Path.Basic

/-! What a command line asks for. -/

namespace CrateYard.CommandLine

inductive Request where
  | metadata (path : Path)
  | build (path : Path) (task : Option String) (tests : Bool)
deriving DecidableEq, Repr

structure Arguments where
  config : Option Path
  request : Request
deriving DecidableEq, Repr

def configSwitch : Switch := ⟨"config", some 'c', true⟩

def taskSwitch : Switch := ⟨"task", some 't', true⟩

def testsSwitch : Switch := ⟨"tests", none, false⟩

/-- A path on a command line is not empty. -/
def pathOf (text : String) : Option Path :=
  if text.isEmpty then none else some ⟨text⟩

namespace Request

def metadataOf? (words : List String) : Option Request := do
  let (items, _) ← readWords [] false words
  match operands items with
  | [] => some (.metadata ⟨"."⟩)
  | [path] => return .metadata (← pathOf path)
  | _ => none

def buildOf? (words : List String) : Option Request := do
  let (items, _) ← readWords [taskSwitch, testsSwitch] false words
  let task ← atMostOnce taskSwitch.long items
  let tests ← atMostOnce testsSwitch.long items
  match operands items with
  | [path] => return .build (← pathOf path) task tests.isSome
  | _ => none

def ofSubcommand? (name : String) (words : List String) : Option Request :=
  match name with
  | "metadata" => metadataOf? words
  | "build" => buildOf? words
  | _ => none

end Request

/-- The arguments in the words of a command line: switches, then a subcommand. -/
def Arguments.ofWords? (words : List String) : Option Arguments := do
  let (items, rest) ← readWords [configSwitch] true words
  let config ← match ← atMostOnce configSwitch.long items with
    | none => some none
    | some text => (pathOf text).map some
  match operands items with
  | [name] => return ⟨config, ← Request.ofSubcommand? name rest⟩
  | _ => none

end CrateYard.CommandLine
