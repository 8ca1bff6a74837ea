import CrateYard.Json.Reader
import CrateYard.Json.Record

/-! The metadata document of a workspace, as the build tool prints it: packages with their targets, the
members, and the resolved edges. Versions of the tool differ in what they leave out, so most fields have a
default. -/

namespace CrateYard

open Json (Value Record)

namespace Metadata

/-- A target as the document lists it. -/
structure Target where
  kind : List String
  name : String
  srcPath : String
  crateTypes : List String
  edition : Option String
  doctest : Option Bool
deriving DecidableEq, Repr, Inhabited

structure Package where
  name : String
  version : String
  id : String
  source : Option String
  manifestPath : String
  targets : List Target
  edition : Option String
deriving DecidableEq, Repr, Inhabited

/-- An edge with the name it has in code. -/
structure NamedEdge where
  name : String
  package : String
deriving DecidableEq, Repr, Inhabited

/-- The edges of one package; the named ones are given by newer tools only. -/
structure Node where
  id : String
  dependencies : List String
  named : Option (List NamedEdge)
deriving DecidableEq, Repr, Inhabited

end Metadata

structure Metadata where
  version : Option Nat
  packages : List Metadata.Package
  members : Option (List String)
  resolve : Option (List Metadata.Node)
  workspaceRoot : Option String
deriving DecidableEq, Repr, Inhabited

namespace Metadata

namespace Target

def fields : List String := ["kind", "name", "src_path", "crate_types", "edition", "doctest"]

def ofJson? (v : Value) : Option Target := do
  let r ← Record.ofValue? fields v
  return { kind := ← r.defaulted "kind" (Value.list? Value.text?) []
           name := ← r.required "name" Value.text?
           srcPath := ← r.defaulted "src_path" Value.text? ""
           crateTypes := ← r.defaulted "crate_types" (Value.list? Value.text?) []
           edition := ← r.optional "edition" Value.text?
           doctest := ← r.optional "doctest" Value.bool? }

end Target

namespace Package

def fields : List String := ["name", "version", "id", "source", "manifest_path", "targets", "edition"]

def ofJson? (v : Value) : Option Package := do
  let r ← Record.ofValue? fields v
  return { name := ← r.required "name" Value.text?
           version := ← r.required "version" Value.text?
           id := ← r.required "id" Value.text?
           source := ← r.optional "source" Value.text?
           manifestPath := ← r.defaulted "manifest_path" Value.text? ""
           targets := ← r.defaulted "targets" (Value.list? Target.ofJson?) []
           edition := ← r.optional "edition" Value.text? }

end Package

namespace NamedEdge

def fields : List String := ["name", "pkg"]

def ofJson? (v : Value) : Option NamedEdge := do
  let r ← Record.ofValue? fields v
  return { name := ← r.required "name" Value.text?
           package := ← r.required "pkg" Value.text? }

end NamedEdge

namespace Node

def fields : List String := ["id", "dependencies", "deps"]

def ofJson? (v : Value) : Option Node := do
  let r ← Record.ofValue? fields v
  return { id := ← r.required "id" Value.text?
           dependencies := ← r.defaulted "dependencies" (Value.list? Value.text?) []
           named := ← r.optional "deps" (Value.list? NamedEdge.ofJson?) }

/-- The edges of the node, with their names where it names them. -/
def edges (n : Node) : List (String × Option String) :=
  match n.named with
  | some named => named.map fun e => (e.package, some e.name)
  | none => n.dependencies.map fun d => (d, none)

end Node

def nodesOfJson? (v : Value) : Option (List Node) := do
  let r ← Record.ofValue? ["nodes"] v
  r.defaulted "nodes" (Value.list? Node.ofJson?) []

def fields : List String := ["version", "packages", "workspace_members", "resolve", "workspace_root"]

def ofJson? (v : Value) : Option Metadata := do
  let r ← Record.ofValue? fields v
  return { version := ← r.optional "version" Value.word64?
           packages := ← r.defaulted "packages" (Value.list? Package.ofJson?) []
           members := ← r.optional "workspace_members" (Value.list? Value.text?)
           resolve := ← r.optional "resolve" nodesOfJson?
           workspaceRoot := ← r.optional "workspace_root" Value.text? }

def parse? (text : String) : Option Metadata :=
  (Value.parse? text).bind ofJson?

end Metadata
end CrateYard
