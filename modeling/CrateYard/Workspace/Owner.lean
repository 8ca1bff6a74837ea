import CrateYard.Workspace.Graph

/-! Who owns a file: the package with the deepest root above it, and the target whose source file it is or whose
source directory is the deepest above it. -/

namespace CrateYard

/-- The last item among those with the greatest measure. -/
def lastMax (measure : α → Nat) : List α → Option α
  | [] => none
  | a :: rest =>
    match lastMax measure rest with
    | some b => if measure a ≤ measure b then some b else some a
    | none => some a

/-- The first item among those with the greatest measure. -/
def firstMax (measure : α → Nat) : List α → Option α
  | [] => none
  | a :: rest =>
    match firstMax measure rest with
    | some b => if measure a < measure b then some b else some a
    | none => some a

namespace Graph

/-- The package whose root most closely contains a file. -/
def packageOf? (g : Graph) (file : Path) : Option Package :=
  lastMax (fun p => p.root.depth) (g.packages.filter fun p => file.startsWith p.root)

def allTargets (g : Graph) : List (Package × Target) :=
  g.packages.flatMap fun p => p.targets.map fun t => (p, t)

def directoryAbove? (file : Path) (t : Target) : Option Path :=
  t.directory?.filter fun dir => file.startsWith dir

/-- How deep the directory of a target's source file lies. -/
def directoryDepth (t : Target) : Nat :=
  (t.directory?.map Path.depth).getD 0

/-- The target that a file belongs to: the first whose source file it is, or else the first whose directory most
closely contains it. -/
def targetOf? (g : Graph) (file : Path) : Option (Package × Target) :=
  match g.allTargets.find? fun x => x.2.crateRoot.same file with
  | some found => some found
  | none =>
    firstMax (fun x => directoryDepth x.2) (g.allTargets.filter fun x => (directoryAbove? file x.2).isSome)

end Graph
end CrateYard
