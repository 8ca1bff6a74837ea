import CrateYard.FileTree.Resolve
import CrateYard.Metadata
import CrateYard.Workspace.Omission
import CrateYard.Workspace.Graph

/-! A workspace from a metadata document and the file tree. Only a format version that is not known and a missing
list of members fail the document as a whole; a package without its directory, a target without its source
file and an edge to a package that is not kept are left out and reported, in the order of the document. -/

namespace CrateYard

structure Workspace where
  graph : Graph
  omitted : List Omission
deriving DecidableEq, Repr, Inhabited

/-- Why a document fails as a whole. -/
inductive DocumentError where
  | malformed
  | unsupportedFormat (found : Option Nat)
  | missingMembers
deriving DecidableEq, Repr

namespace DocumentError

def supportedVersion : Nat := 1

def message : DocumentError → String
  | .malformed => "failed to parse cargo metadata: <json error>"
  | .unsupportedFormat found =>
    let text := match found with
      | some n => "Some(" ++ toString n ++ ")"
      | none => "None"
    "unsupported cargo metadata format version " ++ text ++ ", expected " ++ toString supportedVersion
  | .missingMembers =>
    "cargo metadata has no `workspace_members`, this cargo version is not supported"

end DocumentError

namespace Workspace

def rootOf (t : FileTree) (manifestPath : String) : Except OmissionCause Path :=
  match (⟨manifestPath⟩ : Path).parent?.filter fun dir => !dir.isEmpty with
  | none => .error (.badManifestPath manifestPath)
  | some dir =>
    match t.canonical dir with
    | .ok root =>
      if t.isDirectory root then .ok root else .error (.rootMissing root "not a directory")
    | .error e => .error (.rootMissing dir e.message)

/-- The readings of a source path, best first: an absolute one stands for itself, and then for the path below
the package that it spells. -/
def readings (root source : Path) : List Path :=
  if source.isEmpty then []
  else if source.isAbsolute then [source, root.join source.relative]
  else [root.join source]

def sourceFile? (t : FileTree) (root source : Path) : Option Path :=
  ((readings root source).filterMap fun p => (t.canonical p).toOption).find? t.isFile

/-- A target of a package at `root`, if its source file is there. -/
def loadTarget? (t : FileTree) (root : Path) (edition : Edition) (raw : Metadata.Target) : Option Target :=
  (sourceFile? t root ⟨raw.srcPath⟩).map fun file =>
    { name := raw.name
      kind := .ofNames raw.kind raw.crateTypes
      crateRoot := file
      edition := match raw.edition with
        | some text => .ofDocument (some text)
        | none => edition
      doctest := raw.doctest.getD true }

/-- The omission of a target whose source file is not there. -/
def targetOmission (raw : Metadata.Package) (target : Metadata.Target) : Omission :=
  .target ⟨raw.id⟩ target.name (.sourceMissing target.srcPath)

/-- A listed package: the package, if it is kept, and the omissions that it brings. -/
def loadPackage (t : FileTree) (members : List String) (raw : Metadata.Package) :
    Option Package × List Omission :=
  match rootOf t raw.manifestPath with
  | .error reason => (none, [.package ⟨raw.id⟩ reason])
  | .ok root =>
    let edition := Edition.ofDocument raw.edition
    (some
      { id := ⟨raw.id⟩
        name := raw.name
        version := raw.version
        root := root
        origin := if members.contains raw.id then .workspace else .transitive
        edition := edition
        source := .ofDocument raw.source
        targets := raw.targets.filterMap (loadTarget? t root edition) },
      (raw.targets.filter fun target => (loadTarget? t root edition target).isNone).map (targetOmission raw))

/-- The listed packages, given the ids already seen: what is kept, and the omissions. Of several with one id only the
first is looked at. -/
def loadPackages (t : FileTree) (members : List String) (seen : List String) :
    List Metadata.Package → List Package × List Omission
  | [] => ([], [])
  | raw :: rest =>
    if seen.contains raw.id then
      let (packages, omissions) := loadPackages t members seen rest
      (packages, .package ⟨raw.id⟩ .repeatedId :: omissions)
    else
      let (package, own) := loadPackage t members raw
      let (packages, omissions) := loadPackages t members (raw.id :: seen) rest
      (package.toList ++ packages, own ++ omissions)

def libraryNameOf? (packages : List Package) (id : String) : Option String :=
  (packages.find? fun p => p.id.text = id).map Package.libraryName

/-- The edges of a node that lead to kept packages, the first to each. A name is kept where it is not the
library's own. -/
def loadEdges (packages : List Package) (seen : List String) :
    List (String × Option String) → List Dependency
  | [] => []
  | (package, name) :: rest =>
    match libraryNameOf? packages package with
    | none => loadEdges packages seen rest
    | some lib =>
      if seen.contains package then loadEdges packages seen rest
      else ⟨⟨package⟩, name.filter (· ≠ lib)⟩ :: loadEdges packages (package :: seen) rest

/-- The omissions of a node: an edge to a package that is not kept, each time it is listed. -/
def edgeOmissions (packages : List Package) (node : Metadata.Node) : List Omission :=
  (node.edges.filter fun e => (libraryNameOf? packages e.1).isNone).map fun e =>
    .dependency ⟨node.id⟩ ⟨e.1⟩ .unlisted

def knownNodes (packages : List Package) (nodes : List Metadata.Node) : List Metadata.Node :=
  nodes.filter fun n => (libraryNameOf? packages n.id).isSome

/-- The edges that the nodes give a package: of several nodes, the last. -/
def edgesOf (packages : List Package) (nodes : List Metadata.Node) (id : PackageId) : List Dependency :=
  match (knownNodes packages nodes).reverse.find? fun n => n.id = id.text with
  | some n => loadEdges packages [] n.edges
  | none => []

/-- The workspace of a document. `fallback` is its root where the document names none. -/
def load (t : FileTree) (document : Metadata) (fallback : Path) : Except DocumentError Workspace :=
  if document.version = some DocumentError.supportedVersion then
    match document.members with
    | none => .error .missingMembers
    | some members =>
      let root := match document.workspaceRoot with
        | some text => t.locate ⟨text⟩
        | none => fallback
      let (packages, omissions) := loadPackages t members [] document.packages
      let nodes := document.resolve.getD []
      .ok
        { graph := .ofPackages root packages (edgesOf packages nodes)
          omitted := omissions ++ (knownNodes packages nodes).flatMap (edgeOmissions packages) }
  else .error (.unsupportedFormat document.version)

end Workspace
end CrateYard
