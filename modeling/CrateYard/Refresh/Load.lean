import CrateYard.Project.Basic
import CrateYard.Toolchain

/-! What a refresh makes of the tools' answers. The compiler and its libraries are asked for once and shared; each
project loads a workspace of its own, and one that cannot keeps what it had. -/

namespace CrateYard

namespace Workspace

/-- The workspace of a manifest, from the answer about it. -/
def ofAnswer (t : FileTree) (manifest : Path) (answer : Except ToolError Metadata) :
    Except ToolError Workspace :=
  match answer with
  | .ok document => (load t document manifest.dir).mapError .metadata
  | .error e => .error e

end Workspace

/-- What all projects of a refresh share. -/
structure Probe where
  compiler : Option Compiler
  compilerStatus : Status
  sysroot : Option Path
  libraryStatus : Status
deriving DecidableEq, Repr

namespace Probe

/-- The reason where an installation has no library sources. -/
def sourcesMissing : String := "rust-src component is not installed"

def statusOf : Except ToolError α → Status
  | .ok _ => .current
  | .error e => .failed e.message

def libraryStatusOf (t : FileTree) : Except ToolError Path → Status
  | .ok sysroot => if t.isDirectory sysroot.librarySources then .current else .failed sourcesMissing
  | .error e => .failed e.message

def ofAnswers (t : FileTree) (compiler : Except ToolError Compiler) (sysroot : Except ToolError Path) :
    Probe :=
  { compiler := compiler.toOption
    compilerStatus := statusOf compiler
    sysroot := sysroot.toOption
    libraryStatus := libraryStatusOf t sysroot }

/-- The project that comes of `old`. Host data does not carry over. -/
def refreshed (probe : Probe) (old : Project) (loaded : Except ToolError Workspace) : Project :=
  let project : Project :=
    { Project.new old.manifest with
      compiler := probe.compiler
      sysroot := probe.sysroot
      compilerStatus := probe.compilerStatus
      libraryStatus := probe.libraryStatus }
  match loaded with
  | .ok workspace =>
    { project with
      workspace := some workspace.graph
      omitted := workspace.omitted
      workspaceStatus := .current }
  | .error e =>
    { project with
      workspace := old.workspace
      omitted := old.omitted
      workspaceStatus := .failed e.message }

end Probe
end CrateYard
