import CrateYard.Project.Basic

/-! The view of a project that is shown to users. -/

namespace CrateYard

open Json (Value)

structure PackageOutline where
  name : String
  version : String
  isMember : Bool
  targets : List String
  dependencies : List String
deriving DecidableEq, Repr

structure ProjectOutline where
  name : String
  manifest : Path
  status : Status
  compiler : Option Compiler
  packages : List PackageOutline
  omitted : List String
deriving DecidableEq, Repr

def Dependency.label (d : Dependency) : String :=
  match d.rename with
  | some rename => d.package.text ++ " as " ++ rename
  | none => d.package.text

namespace PackageOutline

def ofNode (n : Node) : PackageOutline :=
  { name := n.package.name
    version := n.package.version
    isMember := n.package.isMember
    targets := n.package.targets.map (·.name)
    dependencies := n.edges.map Dependency.label }

def toJson (s : PackageOutline) : Value :=
  .record [("name", .text s.name), ("version", .text s.version), ("workspace_member", .bool s.isMember),
    ("targets", .texts s.targets), ("dependencies", .texts s.dependencies)]

end PackageOutline

namespace ProjectOutline

def ofProject (p : Project) : ProjectOutline :=
  { name := p.displayName
    manifest := p.manifest
    status := p.status
    compiler := p.compiler
    packages := ((p.workspace.map (·.nodes)).getD []).map PackageOutline.ofNode
    omitted := p.omitted.map Omission.message }

def toJson (s : ProjectOutline) : Value :=
  .record [("name", .text s.name), ("manifest", s.manifest.toJson), ("status", s.status.toJson),
    ("rustc", .ofOption Compiler.toJson s.compiler), ("packages", .ofList PackageOutline.toJson s.packages),
    ("dropped", .texts s.omitted)]

end ProjectOutline
end CrateYard
