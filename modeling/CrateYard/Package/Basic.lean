import CrateYard.Package.Edition
import CrateYard.Package.Source
import CrateYard.Package.TargetKind
import CrateYard.Path.Basic
import CrateYard.Version

/-! Packages, their targets and the edges between packages. -/

namespace CrateYard

/-- The text by which the build tool names a package. -/
structure PackageId where
  text : String
deriving DecidableEq, Repr, Inhabited

/-- A member of the workspace, or something it needs. -/
inductive Origin where
  | workspace
  | transitive
deriving DecidableEq, Repr, Inhabited

structure Target where
  name : String
  kind : TargetKind
  crateRoot : Path
  edition : Edition
  doctest : Bool
deriving DecidableEq, Repr, Inhabited

structure Package where
  id : PackageId
  name : String
  version : String
  /-- The directory of the manifest. -/
  root : Path
  origin : Origin
  edition : Edition
  source : Source
  targets : List Target
deriving DecidableEq, Repr, Inhabited

structure Dependency where
  package : PackageId
  /-- The name it has in code, where that is not the library's own. -/
  rename : Option String
deriving DecidableEq, Repr, Inhabited

/-- A name as it is written in code. -/
def crateName (name : String) : String :=
  String.ofList (name.toList.map fun c => if c = '-' then '_' else c)

namespace Target

def directory? (t : Target) : Option Path :=
  t.crateRoot.parent?

def codeName (t : Target) : String :=
  crateName t.name

end Target

namespace Package

def version? (p : Package) : Option Version :=
  Version.parse? p.version

def library? (p : Package) : Option Target :=
  p.targets.find? fun t => t.kind.isLib

/-- The name under which other packages use this one's library. -/
def libraryName (p : Package) : String :=
  match p.library? with
  | some t => t.codeName
  | none => crateName p.name

def isMember (p : Package) : Bool :=
  p.origin = .workspace

end Package
end CrateYard
