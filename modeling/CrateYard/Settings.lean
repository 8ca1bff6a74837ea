import CrateYard.FileTree.Resolve
import CrateYard.Json.Limits
import CrateYard.Json.Reader
import CrateYard.Json.Record

/-! The settings that a configuration file can change. What it does not mention has a default. -/

namespace CrateYard

open Json (Value Record)

structure BuildSettings where
  /-- How often a build that waits looks whether it was canceled, in milliseconds. -/
  pollMs : Nat
  defaultTask : String
deriving DecidableEq, Repr

structure RefreshSettings where
  timeoutSecs : Nat
  debounceMs : Nat
deriving DecidableEq, Repr

structure Settings where
  cargo : String
  rustc : String
  build : BuildSettings
  refresh : RefreshSettings
  /-- How deep below a directory manifests are searched. -/
  maxDepth : Nat
deriving DecidableEq, Repr

inductive SettingsError where
  | unreadable (path : Path) (cause : PathError)
  | malformed (path : Path)
deriving DecidableEq, Repr

namespace SettingsError

def message : SettingsError → String
  | .unreadable path _ => "failed to read config file " ++ path.text
  | .malformed path => "failed to parse config file " ++ path.text

end SettingsError

namespace BuildSettings

def default : BuildSettings := ⟨100, "build"⟩

/-- The interval between two looks; there is always some time between them. -/
def interval (s : BuildSettings) : Nat :=
  max s.pollMs 1

def ofJson? (v : Value) : Option BuildSettings := do
  let r ← Record.ofValue? ["pollIntervalMs", "defaultTask"] v
  return { pollMs := ← r.defaulted "pollIntervalMs" Value.word64? default.pollMs
           defaultTask := ← r.defaulted "defaultTask" Value.text? default.defaultTask }

end BuildSettings

namespace RefreshSettings

def default : RefreshSettings := ⟨120, 300⟩

def ofJson? (v : Value) : Option RefreshSettings := do
  let r ← Record.ofValue? ["timeoutSecs", "debounceMs"] v
  return { timeoutSecs := ← r.defaulted "timeoutSecs" Value.word64? default.timeoutSecs
           debounceMs := ← r.defaulted "debounceMs" Value.word64? default.debounceMs }

end RefreshSettings

namespace Settings

def default : Settings :=
  ⟨"cargo", "rustc", .default, .default, 1⟩

def depthOfJson? (v : Value) : Option Nat := do
  let r ← Record.ofValue? ["maxDepth"] v
  r.defaulted "maxDepth" Value.word64? default.maxDepth

def ofJson? (v : Value) : Option Settings := do
  let r ← Record.ofValue? ["cargoPath", "rustcPath", "build", "refresh", "discovery"] v
  let cargo ← r.defaulted "cargoPath" (Value.option? Value.text?) none
  let rustc ← r.defaulted "rustcPath" (Value.option? Value.text?) none
  return { cargo := cargo.getD default.cargo
           rustc := rustc.getD default.rustc
           build := ← r.defaulted "build" BuildSettings.ofJson? .default
           refresh := ← r.defaulted "refresh" RefreshSettings.ofJson? .default
           maxDepth := ← r.defaulted "discovery" depthOfJson? default.maxDepth }

def parse? (text : String) : Option Settings :=
  (Value.parse? text).bind ofJson?

def ofFile (t : FileTree) (path : Path) : Except SettingsError Settings :=
  match t.readText path with
  | .error cause => .error (.unreadable path cause)
  | .ok text =>
    match parse? text with
    | some settings => .ok settings
    | none => .error (.malformed path)

end Settings
end CrateYard
