import CrateYard.Package.Basic

/-! The graph of a workspace: packages in order, and for each its edges to others of them. A graph is built
once; a repeated package, an edge to a package that is not there and a repeated edge are left out. -/

namespace CrateYard

structure Node where
  package : Package
  edges : List Dependency
deriving DecidableEq, Repr, Inhabited

structure Graph where
  root : Path
  nodes : List Node
deriving DecidableEq, Repr, Inhabited

namespace Graph

/-- The packages that are the first with their id, given the ids already seen. -/
def firstsFrom (seen : List PackageId) : List Package → List Package
  | [] => []
  | p :: rest =>
    if seen.contains p.id then firstsFrom seen rest else p :: firstsFrom (p.id :: seen) rest

/-- The edges that are the first towards their package, given the packages already reached. -/
def firstEdgesFrom (seen : List PackageId) : List Dependency → List Dependency
  | [] => []
  | d :: rest =>
    if seen.contains d.package then firstEdgesFrom seen rest
    else d :: firstEdgesFrom (d.package :: seen) rest

/-- The edges that a graph with these packages keeps. -/
def keepEdges (known : List PackageId) (edges : List Dependency) : List Dependency :=
  firstEdgesFrom [] (edges.filter fun d => known.contains d.package)

/-- The graph with these packages, and with the edges that are listed for each. -/
def ofPackages (root : Path) (packages : List Package) (edges : PackageId → List Dependency) : Graph :=
  let firsts := firstsFrom [] packages
  let known := firsts.map (·.id)
  ⟨root, firsts.map fun p => ⟨p, keepEdges known (edges p.id)⟩⟩

def empty : Graph :=
  ⟨⟨""⟩, []⟩

def packages (g : Graph) : List Package :=
  g.nodes.map (·.package)

def ids (g : Graph) : List PackageId :=
  g.nodes.map (·.package.id)

def size (g : Graph) : Nat :=
  g.nodes.length

def isEmpty (g : Graph) : Bool :=
  g.nodes.isEmpty

def node? (g : Graph) (id : PackageId) : Option Node :=
  g.nodes.find? fun n => n.package.id = id

def package? (g : Graph) (id : PackageId) : Option Package :=
  (g.node? id).map (·.package)

def contains (g : Graph) (id : PackageId) : Bool :=
  (g.node? id).isSome

def packageNamed? (g : Graph) (name : String) : Option Package :=
  g.packages.find? fun p => p.name = name

def members (g : Graph) : List Package :=
  g.packages.filter Package.isMember

def targets? (g : Graph) (id : PackageId) : Option (List Target) :=
  (g.package? id).map (·.targets)

def edges? (g : Graph) (id : PackageId) : Option (List Dependency) :=
  (g.node? id).map (·.edges)

/-- The packages that the edges of `id` lead to. -/
def successors (g : Graph) (id : PackageId) : List PackageId :=
  ((g.edges? id).getD []).map (·.package)

/-- The packages that have an edge to `id`. -/
def predecessors (g : Graph) (id : PackageId) : List PackageId :=
  (g.nodes.filter fun n => n.edges.any fun d => d.package = id).map (·.package.id)

def notFoundMessage (id : PackageId) : String :=
  "package `" ++ id.text ++ "` not found in workspace"

end Graph
end CrateYard
