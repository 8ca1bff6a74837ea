import CrateYard.Build.Run
import CrateYard.CommandLine.Arguments
import CrateYard.Json.Writer
import CrateYard.Machine.Tools
import CrateYard.Project.Outline
import CrateYard.Refresh.Yard
import CrateYard.Settings

/-! The program behind the command line: what it writes, how it ends, and which programs it runs. -/

namespace CrateYard.CommandLine

open Json (Value)

structure Outcome where
  exit : Nat
  stdout : String
  stderr : String
  invocations : List Invocation
deriving DecidableEq, Repr

/-- A failure: what could not be done, and why if there is a reason behind it. -/
structure Failure where
  message : String
  cause : Option String
deriving DecidableEq, Repr

namespace Failure

def report (f : Failure) : String :=
  "Error: " ++ f.message ++ "\n" ++
    match f.cause with
    | some cause => "\nCaused by:\n    " ++ cause ++ "\n"
    | none => ""

def noManifest (path : Path) (e : PathError) : Failure :=
  ⟨"no cargo manifest at " ++ path.text, some e.message⟩

def unresolved (path : Path) (e : PathError) : Failure :=
  ⟨"failed to resolve " ++ path.text, some e.message⟩

def timedOut : Failure :=
  ⟨"timed out refreshing cargo projects", some "deadline has elapsed"⟩

def nothingFound : Failure :=
  ⟨"no cargo projects found", none⟩

def ofRefresh (e : Yard.RefreshFailure) : Failure :=
  ⟨e.message, none⟩

def ofSettings : SettingsError → Failure
  | .unreadable path cause => ⟨(SettingsError.unreadable path cause).message, some cause.message⟩
  | .malformed path => ⟨(SettingsError.malformed path).message, some "<json error>"⟩

end Failure

/-- The machine with the settings that are in force. -/
structure Session where
  machine : Machine
  settings : Settings

namespace Session

def tools (s : Session) : Tools :=
  ⟨s.settings.cargo, s.settings.rustc⟩

def yard (s : Session) : Yard :=
  .start s.machine.tree (s.tools.toolchain s.machine)

def timeout (s : Session) : Nat :=
  s.settings.refresh.timeoutSecs * 1000

def invocations (s : Session) (notices : List Notice) : List Invocation :=
  notices.filterMap fun
    | .called call => s.tools.invocation? s.machine call
    | _ => none

def refreshOne (s : Session) (path : Path) : Yard × Except Failure (List Project) :=
  match s.yard.attach path with
  | .error e => (s.yard, .error (.noManifest path e))
  | .ok (yard, _) =>
    let (yard, result) := yard.refreshWithin s.timeout
    (yard, result.mapError .ofRefresh)

/-- Refreshes the projects found below a path. -/
def refreshFound (s : Session) (path : Path) : Yard × Except Failure (List Project) :=
  match s.machine.tree.canonical path with
  | .error e => (s.yard, .error (.unresolved path e))
  | .ok root =>
    match (s.yard.discover [root] s.settings.maxDepth).refreshIn s.timeout with
    | (yard, none) => (yard, .error .timedOut)
    | (yard, some []) => (yard, .error .nothingFound)
    | (yard, some projects) => (yard, .ok projects)

/-- A path names a project if it is a file or a directory with a manifest. -/
def isProject (s : Session) (path : Path) : Bool :=
  s.machine.tree.isFile (path.join .manifestName) || s.machine.tree.isFile path

def failed (s : Session) (yard : Yard) (f : Failure) : Outcome :=
  ⟨1, "", f.report, s.invocations yard.notices⟩

def metadata (s : Session) (path : Path) : Outcome :=
  let (yard, result) := if s.isProject path then s.refreshOne path else s.refreshFound path
  match result with
  | .error f => s.failed yard f
  | .ok projects =>
    let summaries := Value.ofList (fun p => (ProjectOutline.ofProject p).toJson) projects
    ⟨0, summaries.pretty "" ++ "\n", "", s.invocations yard.notices⟩

def shown (notices : List Build.Notice) : List String :=
  notices.filterMap fun
    | .published _ event => event.shown?
    | .answered _ _ | .refused _ => none

def build (s : Session) (path : Path) (task : Option String) (tests : Bool) : Outcome :=
  let (yard, result) := s.refreshOne path
  match result with
  | .error f => s.failed yard f
  | .ok [] => s.failed yard ⟨"no cargo project at " ++ path.text, none⟩
  | .ok (project :: _) =>
    let task := task.getD s.settings.build.defaultTask
    let lane : Build.Lane := ⟨0, project.directory.text, s.settings.build.interval⟩
    let run := Build.run s.machine lane project task tests
      (Build.command s.settings.cargo project task tests) .never
    let succeeded := run.result?.any (·.succeeded)
    { exit := if succeeded then 0 else 1
      stdout := (Value.ofOption Build.Result.toJson run.result?).pretty "" ++ "\n"
      stderr := String.join ((shown run.site.notices).map (· ++ "\n"))
      invocations := s.invocations yard.notices ++ run.invocations }

end Session

def usage : String :=
  "Usage: [-c FILE] metadata [PATH]\n       [-c FILE] build PATH [-t TASK] [--tests]\n"

/-- The settings in force: those of the named file, or the defaults. -/
def settings (m : Machine) : Option Path → Except SettingsError Settings
  | none => .ok .default
  | some path => Settings.ofFile m.tree path

def run (m : Machine) (words : List String) : Outcome :=
  match Arguments.ofWords? words with
  | none => ⟨2, "", usage, []⟩
  | some arguments =>
    match settings m arguments.config with
    | .error e => ⟨1, "", (Failure.ofSettings e).report, []⟩
    | .ok settings =>
      let session : Session := ⟨m, settings⟩
      match arguments.request with
      | .metadata path => session.metadata path
      | .build path task tests => session.build path task tests

end CrateYard.CommandLine
