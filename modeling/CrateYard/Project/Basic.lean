import CrateYard.Path.Manifest
import CrateYard.Project.Compiler
import CrateYard.Project.Status
import CrateYard.Workspace.Omission
import CrateYard.Workspace.Owner

/-! A project: a manifest and what is known about the workspace that it heads. A refresh never changes a project in
part; it makes a new one. -/

namespace CrateYard

structure Project where
  manifest : Path
  /-- Nothing until a refresh has brought one. -/
  workspace : Option Graph
  compiler : Option Compiler
  sysroot : Option Path
  workspaceStatus : Status
  libraryStatus : Status
  compilerStatus : Status
  /-- What the last refresh had to leave out. -/
  omitted : List Omission
  /-- What the host has put here. -/
  hostData : Option String
deriving DecidableEq, Repr

namespace Project

/-- A project of which nothing is known yet. -/
def new (manifest : Path) : Project :=
  { manifest := manifest
    workspace := none
    compiler := none
    sysroot := none
    workspaceStatus := .stale
    libraryStatus := .stale
    compilerStatus := .stale
    omitted := []
    hostData := none }

def status (p : Project) : Status :=
  (p.workspaceStatus.merge p.libraryStatus).merge p.compilerStatus

def directory (p : Project) : Path :=
  p.manifest.dir

/-- The member whose root is the project's directory. -/
def rootPackage? (p : Project) : Option Package :=
  p.workspace.bind fun g => g.members.find? fun package => package.root.same p.directory

/-- The name to show: of the root package, or of the directory. -/
def displayName (p : Project) : String :=
  match p.rootPackage? with
  | some package => package.name
  | none => p.directory.fileName?.getD p.manifest.text

def packageOf? (p : Project) (file : Path) : Option Package :=
  p.workspace.bind fun g => g.packageOf? file

/-- A file below the project's directory, or below one of its packages. -/
def covers (p : Project) (file : Path) : Bool :=
  file.startsWith p.directory || (p.packageOf? file).isSome

end Project
end CrateYard
