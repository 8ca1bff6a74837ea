import CrateYard.Path.Basic
import CrateYard.Text.Utf8

/-! A file tree: directories, regular files and symbolic links, each behind the row of names from the root down to
it. The root itself is always a directory. A name need not be text, but paths are, and so are the targets of links: a
path leads to locations, which are rows of names that are text. -/

namespace CrateYard

abbrev Location := List String

namespace Location

def toPath (l : Location) : Path :=
  ⟨"/" ++ String.intercalate "/" l⟩

end Location

/-- A name in a directory: a text, or bytes that are none. -/
inductive Name where
  | text (s : String)
  | bytes (b : List UInt8) (h : Text.Utf8.decode? b = none)
deriving DecidableEq, Repr

namespace Name

instance : Coe String Name := ⟨text⟩

def isText : Name → Bool
  | text _ => true
  | bytes _ _ => false

@[simp] theorem text_beq_text (s s' : String) : (text s == text s') = (s == s') := by
  rw [Bool.eq_iff_iff, beq_iff_eq, beq_iff_eq, text.injEq]

end Name

inductive Entry where
  | file (content : List UInt8)
  | link (target : String)
  | directory
deriving DecidableEq, Repr

structure FileTree where
  entries : List (List Name × Entry)
  /-- Where relative paths begin. -/
  workdir : Location

/-- Why a path names nothing that can be used. -/
inductive PathError where
  | notFound
  | notDirectory
  | isDirectory
  | nameTooLong
  | tooManyLinks
  | nulByte
  | permissionDenied
  | notText
deriving DecidableEq, Repr

namespace PathError

def message : PathError → String
  | .notFound => "No such file or directory (os error 2)"
  | .notDirectory => "Not a directory (os error 20)"
  | .isDirectory => "Is a directory (os error 21)"
  | .nameTooLong => "File name too long (os error 36)"
  | .tooManyLinks => "Too many levels of symbolic links (os error 40)"
  | .nulByte => "file name contained an unexpected NUL byte"
  | .permissionDenied => "Permission denied (os error 13)"
  | .notText => "stream did not contain valid UTF-8"

end PathError

namespace FileTree

/-- What is behind a row of names. -/
def at? (t : FileTree) (place : List Name) : Option Entry :=
  if place.isEmpty then some .directory else t.entries.lookup place

@[simp] theorem at?_nil (t : FileTree) : t.at? [] = some .directory := rfl

def entry? (t : FileTree) (l : Location) : Option Entry :=
  t.at? (l.map .text)

def insert (t : FileTree) (l : Location) (e : Entry) : FileTree :=
  let place := l.map Name.text
  if t.entries.any fun x => x.1 = place then
    { t with entries := t.entries.map fun x => if x.1 = place then (place, e) else x }
  else { t with entries := t.entries ++ [(place, e)] }

def erase (t : FileTree) (l : Location) : FileTree :=
  { t with entries := t.entries.filter fun x => !(l.map Name.text).isPrefixOf x.1 }

/-- The names in a directory. -/
def names (t : FileTree) (l : Location) : List Name :=
  t.entries.filterMap fun x => if x.1.dropLast = l.map .text then x.1.getLast? else none

end FileTree
end CrateYard
