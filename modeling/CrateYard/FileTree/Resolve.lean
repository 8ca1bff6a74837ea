import CrateYard.FileTree.Basic

/-! Path resolution: segments are taken from left to right, links are followed, and every segment but an
empty path needs a directory to be looked up in. At most forty links are followed on the way. The system takes no
path that is too long. To look at what is there it is asked with the whole path, and then goes its way however far
that leads. A canonical path is worked out name by name: the path that is given may be as long as it likes, but the
system is asked about each location on the way by the path of that location. -/

namespace CrateYard.FileTree

/-- The longest name a directory can hold, in bytes. -/
def nameLimit : Nat := 255

/-- A path that is handed to the system is shorter than this, in bytes. -/
def pathLimit : Nat := 4096

/-- The system can be asked about the location by its path. -/
def canAsk (l : Location) : Bool :=
  l.toPath.text.utf8ByteSize < pathLimit

/-- How many links one resolution follows. -/
def linkLimit : Nat := 40

def start (t : FileTree) (p : Path) : Location :=
  if p.isAbsolute then [] else t.workdir

def isName (segment : String) : Bool :=
  segment ≠ "" && segment ≠ "." && segment ≠ ".."

/-- Follows the segments `todo` from `here`, with `links` more links allowed; `fits` says which locations may be met
on the way. -/
def walk (t : FileTree) (fits : Location → Bool) (links : Nat) (here : Location) (todo : List String) :
    Except PathError Location :=
  match todo with
  | [] => .ok here
  | s :: rest =>
    if isName s && !fits (here ++ [s]) then .error .nameTooLong
    else match t.entry? here with
      | some .directory =>
        if s = "" || s = "." then walk t fits links here rest
        else if s = ".." then walk t fits links here.dropLast rest
        else if s.utf8ByteSize > nameLimit then .error .nameTooLong
        else match t.entry? (here ++ [s]) with
          | none => .error .notFound
          | some (.link target) =>
            match links with
            | 0 => .error .tooManyLinks
            | links + 1 =>
              walk t fits links (if (⟨target⟩ : Path).isAbsolute then [] else here)
                ((⟨target⟩ : Path).segments ++ rest)
          | some _ => walk t fits links (here ++ [s]) rest
      | some _ => .error .notDirectory
      | none => .error .notFound
termination_by (links, todo.length)

/-- Follows segments wherever they lead. -/
def follow (t : FileTree) (here : Location) (todo : List String) : Except PathError Location :=
  t.walk (fun _ => true) linkLimit here todo

def resolve (t : FileTree) (p : Path) : Except PathError Location :=
  if p.text.toList.contains '\x00' then .error .nulByte
  else if p.isEmpty then .error .notFound
  else t.walk canAsk linkLimit (t.start p) p.segments

/-- The location that a path names, asked with the whole path. -/
def reach (t : FileTree) (p : Path) : Except PathError Location :=
  if p.text.toList.contains '\x00' then .error .nulByte
  else if p.isEmpty then .error .notFound
  else if p.text.utf8ByteSize < pathLimit then t.follow (t.start p) p.segments
  else .error .nameTooLong

def find (t : FileTree) (p : Path) : Except PathError Entry := do
  match t.entry? (← t.reach p) with
  | some e => .ok e
  | none => .error .notFound

/-- The absolute path without links, dots and doubled slashes for what `p` names. -/
def canonical (t : FileTree) (p : Path) : Except PathError Path := do
  let l ← t.resolve p
  match t.entry? l with
  | some _ => .ok l.toPath
  | none => .error .notFound

/-- The canonical path, or the path as given when it names nothing. -/
def locate (t : FileTree) (p : Path) : Path :=
  match t.canonical p with
  | .ok q => q
  | .error _ => p

def isFile (t : FileTree) (p : Path) : Bool :=
  match t.find p with
  | .ok (.file _) => true
  | _ => false

def isDirectory (t : FileTree) (p : Path) : Bool :=
  match t.find p with
  | .ok .directory => true
  | _ => false

def list (t : FileTree) (p : Path) : List Name :=
  match t.reach p with
  | .ok l => if t.entry? l = some .directory then t.names l else []
  | .error _ => []

def read (t : FileTree) (p : Path) : Except PathError (List UInt8) := do
  match ← t.find p with
  | .file content => .ok content
  | _ => .error .isDirectory

def readText (t : FileTree) (p : Path) : Except PathError String := do
  match Text.Utf8.decode? (← t.read p) with
  | some text => .ok text
  | none => .error .notText

end CrateYard.FileTree
