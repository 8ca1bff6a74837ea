import CrateYard.FileTree.Resolve

/-! Changes to a file tree: making directories with their parents, writing files, setting links, removing. -/

namespace CrateYard.FileTree

/-- Follows the names from `here` and makes the directories that are missing. -/
def makeFrom (t : FileTree) (here : Location) : List String → FileTree × Location
  | [] => (t, here)
  | s :: rest =>
    match t.follow here [s] with
    | .ok l => t.makeFrom l rest
    | .error _ => (t.insert (here ++ [s]) .directory).makeFrom (here ++ [s]) rest

def makeDirectory (t : FileTree) (p : Path) : FileTree :=
  (t.makeFrom (t.start p) p.segments).1

/-- The location of a new entry: the directory above it is made if it is missing. -/
def makePlace (t : FileTree) (p : Path) : FileTree × Location :=
  let (t, dir) := t.makeFrom (t.start p) p.segments.dropLast
  (t, dir ++ [p.segments.getLastD ""])

/-- Where a row of links from one location to the next ends; nothing need be there yet. -/
def linkEnd (t : FileTree) : Nat → Location → Location
  | 0, l => l
  | links + 1, l =>
    match t.entry? l with
    | some (.link target) =>
      let here := if (⟨target⟩ : Path).isAbsolute then [] else l.dropLast
      match t.follow here (⟨target⟩ : Path).segments.dropLast with
      | .ok dir => t.linkEnd links (dir ++ [(⟨target⟩ : Path).segments.getLastD ""])
      | .error _ => l
    | _ => l

/-- Writes a file; where there is a link, at its end. A directory there stays. -/
def writeFile (t : FileTree) (p : Path) (content : List UInt8) : FileTree :=
  let (t, l) := t.makePlace p
  let l := t.linkEnd linkLimit l
  if t.entry? l = some .directory then t else t.insert l (.file content)

def setLink (t : FileTree) (p : Path) (target : String) : FileTree :=
  let (t, l) := t.makePlace p
  if t.entry? l = some .directory then t else t.insert l (.link target)

/-- Removes what is at a path, not following a link there, and everything below it. -/
def remove (t : FileTree) (p : Path) : FileTree :=
  match t.follow (t.start p) p.segments.dropLast with
  | .ok dir => t.erase (dir ++ [p.segments.getLastD ""])
  | .error _ => t

/-- The tree that has a working directory and nothing else. -/
def fresh (workdir : Location) : FileTree :=
  ⟨(List.range workdir.length).map fun n => ((workdir.take (n + 1)).map .text, .directory), workdir⟩

def empty : FileTree :=
  fresh []

end CrateYard.FileTree
