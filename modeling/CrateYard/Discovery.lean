import CrateYard.Path.Manifest

/-! The search for manifests. A directory that holds one is not searched further: what lies below it belongs to its
workspace. Hidden directories and build directories are passed over, and so are those whose names are no text. -/

namespace CrateYard.Discovery

def buildDirectory : String := "target"

/-- The text of a name, if a directory of this name is searched. -/
def searched? : Name → Option String
  | .text s => if s.toList.head? = some '.' ∨ s = buildDirectory then none else some s
  | .bytes _ _ => none

def subdirectories (t : FileTree) (dir : Path) : List Path :=
  ((t.list dir).filterMap searched?).map (fun s => dir.join ⟨s⟩) |>.filter t.isDirectory

/-- The manifests at a directory or at most `depth` directories below it, as they are met. -/
def search (t : FileTree) (depth : Nat) (dir : Path) : List Path :=
  let manifest := dir.join .manifestName
  if t.isFile manifest then (t.canonical manifest).toOption.toList
  else match depth with
    | 0 => []
    | depth + 1 => (subdirectories t dir).flatMap (search t depth)

/-- Each path once, of a row in which equal ones are neighbours. -/
def dedup : List Path → List Path
  | [] => []
  | [p] => [p]
  | p :: q :: rest => if p.same q then dedup (p :: rest) else p :: dedup (q :: rest)

/-- The manifests at a directory or at most `depth` directories below it, in order of paths and each once. -/
def manifests (t : FileTree) (depth : Nat) (root : Path) : List Path :=
  dedup ((search t depth root).mergeSort Path.le)

end CrateYard.Discovery
