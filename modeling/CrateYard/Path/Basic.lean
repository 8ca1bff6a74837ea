import CrateYard.Text.Split

/-! Paths. A path keeps the text it was given; two paths are the same place by name when their components
agree, so doubled slashes, single dots and a trailing slash make no difference, while two dots are an
ordinary component. -/

namespace CrateYard

inductive Component where
  | root
  | here
  | up
  | name (s : String)
deriving DecidableEq, Repr, Ord

structure Path where
  text : String
deriving DecidableEq, Repr, Inhabited

namespace Path

def segments (p : Path) : List String :=
  (Text.split '/' p.text.toList).map String.ofList

def ofSegments (segments : List String) : Path :=
  ⟨String.intercalate "/" segments⟩

def isEmpty (p : Path) : Bool :=
  p.text.isEmpty

def isAbsolute (p : Path) : Bool :=
  p.text.toList.head? = some '/'

/-- The component of a segment that is not the first one. -/
def component? (segment : String) : Option Component :=
  if segment = "" || segment = "." then none
  else if segment = ".." then some .up
  else some (.name segment)

/-- A path in two parts: the segments that say where it begins, and those of its body. An absolute path
begins with an empty segment, and a leading dot begins a relative one. -/
def parts (p : Path) : List String × List String :=
  match p.segments with
  | "" :: body => if p.isEmpty then ([], []) else ([""], body)
  | "." :: body => (["."], body)
  | body => ([], body)

/-- The component of the beginning. -/
def leading : List String → List Component
  | [""] => [.root]
  | ["."] => [.here]
  | _ => []

def components (p : Path) : List Component :=
  leading p.parts.1 ++ p.parts.2.filterMap component?

/-- The same place by name. -/
def same (p q : Path) : Bool :=
  p.components = q.components

/-- `p` lies at `dir` or below it, by whole components. -/
def startsWith (p dir : Path) : Bool :=
  dir.components.isPrefixOf p.components

def depth (p : Path) : Nat :=
  p.components.length

/-- The order of paths, by components. -/
def le (p q : Path) : Bool :=
  (compare p.components q.components).isLE

/-- The segments without those at the end that are no component. -/
def trimmed (body : List String) : List String :=
  (body.reverse.dropWhile fun s => (component? s).isNone).reverse

/-- The path with this beginning and this body. -/
def rejoin (lead body : List String) : Path :=
  if lead = [""] && body.isEmpty then ⟨"/"⟩ else ofSegments (lead ++ body)

/-- The path without its last component, as far as its text goes. The root and the empty path have none. -/
def parent? (p : Path) : Option Path :=
  let (lead, body) := p.parts
  match trimmed body with
  | [] => if lead = ["."] then some ⟨""⟩ else none
  | b :: rest => some (rejoin lead (trimmed (b :: rest).dropLast))

def fileName? (p : Path) : Option String :=
  match p.components.getLast? with
  | some (.name s) => some s
  | _ => none

/-- A file name before and after its last point; a name that begins with its only point has no extension. -/
def splitExtension (name : String) : String × Option String :=
  let reversed := name.toList.reverse
  match Text.splitOnce '.' reversed with
  | some (ext, stem) =>
    if stem.isEmpty then (name, none) else (String.ofList stem.reverse, some (String.ofList ext.reverse))
  | none => (name, none)

def extension? (p : Path) : Option String :=
  p.fileName?.bind fun name => (splitExtension name).2

/-- The path that ends with the stem of its file name and this extension; a path without a file name stays as
it is. -/
def setExtension (p : Path) (ext : String) : Path :=
  let (lead, body) := p.parts
  match p.fileName? with
  | some name => rejoin lead ((trimmed body).dropLast ++ [(splitExtension name).1 ++ "." ++ ext])
  | none => p

/-- The path whose text is shorter by `n` characters at its end. -/
def shorten (p : Path) (n : Nat) : Path :=
  ⟨String.ofList (p.text.toList.take (p.text.toList.length - n))⟩

/-- The path with another extension. Its text first loses the length of the old one, so a file name that is no name
without its extension, as that of `..toml`, does not get a new one. -/
def withExtension (p : Path) (ext : String) : Path :=
  (p.shorten ((p.extension?.map String.length).getD 0)).setExtension ext

/-- `q` below `p`; an absolute `q` stands for itself. -/
def join (p : Path) (q : Path) : Path :=
  if q.isAbsolute then q
  else if p.isEmpty || p.text.toList.getLast? = some '/' then ⟨p.text ++ q.text⟩
  else ⟨p.text ++ "/" ++ q.text⟩

/-- An absolute path read again as relative: its names and its steps up. -/
def relative (p : Path) : Path :=
  ofSegments (p.components.filterMap fun
    | .up => some ".."
    | .name s => some s
    | _ => none)

end Path
end CrateYard
