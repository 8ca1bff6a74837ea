import CrateYard.Text.Split

/-! Where a package comes from. A source text is a scheme, a plus sign and a location; a git location may end
in a query and a commit. -/

namespace CrateYard

inductive Source where
  | cratesIo
  | registry (url : String)
  | git (url : String) (reference : Option String) (commit : Option String)
  | path
  | other (text : String)
deriving DecidableEq, Repr, Inhabited

namespace Source

def publicIndex : String := "https://github.com/rust-lang/crates.io-index"

def publicSparse : String := "https://index.crates.io/"

/-- The text before the first `sep`, and the text behind it if it is there. -/
def cut (sep : Char) (text : List Char) : List Char × Option (List Char) :=
  match Text.splitOnce sep text with
  | some (before, after) => (before, some after)
  | none => (text, none)

/-- A git location: the commit is cut off first, then the reference. -/
def ofGit (location : List Char) : Source :=
  let (rest, commit) := cut '#' location
  let (url, reference) := cut '?' rest
  .git (String.ofList url) (reference.map String.ofList) (commit.map String.ofList)

def ofText (text : String) : Source :=
  match Text.splitOnce '+' text.toList with
  | none => .other text
  | some (scheme, rest) =>
    match String.ofList scheme with
    | "registry" => if String.ofList rest = publicIndex then .cratesIo else .registry (String.ofList rest)
    | "sparse" => if String.ofList rest = publicSparse then .cratesIo else .registry (String.ofList rest)
    | "git" => ofGit rest
    | "path" => .path
    | _ => .other text

/-- The source of a package; a package of this machine reports none. -/
def ofDocument : Option String → Source
  | none => .path
  | some text => ofText text

def isGit : Source → Bool
  | .git .. => true
  | _ => false

def isPath : Source → Bool
  | .path => true
  | _ => false

/-- The characters that make up exactly the first `n` bytes, if a character ends there. -/
def takeBytes? : Nat → List Char → Option (List Char)
  | 0, _ => some []
  | _ + 1, [] => none
  | n + 1, c :: rest =>
    if c.utf8Size ≤ n + 1 then (takeBytes? (n + 1 - c.utf8Size) rest).map (c :: ·) else none
termination_by n => n
decreasing_by have := c.utf8Size_pos; omega

/-- The first seven bytes of a git commit, or all of it when no character ends there. -/
def abbreviatedCommit? : Source → Option String
  | .git _ _ (some commit) => some (((takeBytes? 7 commit.toList).map String.ofList).getD commit)
  | _ => none

end Source
end CrateYard
