import CrateYard.Backlog
import CrateYard.Project.Basic

/-! The attached projects, in order of attachment and at most one for each manifest. Attaching, detaching and
committing announce all manifests that are attached afterwards. -/

namespace CrateYard

structure Registry where
  projects : List Project
deriving DecidableEq, Repr

namespace Registry

def empty : Registry := ⟨[]⟩

instance : Inhabited Registry := ⟨empty⟩

/-- What is announced to subscribers: all manifests that are attached. -/
abbrev Announcement := List Path

/-- How many announcements are kept for a subscriber who reads late. -/
def backlog : Nat := 64

/-- What a subscriber can still read of the announcements since the last look. -/
def unread (announced : List Announcement) : List Announcement :=
  Backlog.keep backlog announced

structure Change (α : Type) where
  registry : Registry
  answer : α
  announced : List Announcement

def manifests (r : Registry) : List Path :=
  r.projects.map (·.manifest)

def project? (r : Registry) (manifest : Path) : Option Project :=
  r.projects.find? fun p => p.manifest.same manifest

def isAttached (r : Registry) (manifest : Path) : Bool :=
  r.projects.any fun p => p.manifest.same manifest

def size (r : Registry) : Nat :=
  r.projects.length

def isEmpty (r : Registry) : Bool :=
  r.projects.isEmpty

/-- An operation that announces. -/
def announcing (r : Registry) (answer : α) : Change α :=
  ⟨r, answer, [r.manifests]⟩

def quietly (r : Registry) (answer : α) : Change α :=
  ⟨r, answer, []⟩

def attach (r : Registry) (manifest : Path) : Change Bool :=
  if r.isAttached manifest then r.quietly false
  else announcing ⟨r.projects ++ [.new manifest]⟩ true

def detach (r : Registry) (manifest : Path) : Change Bool :=
  if r.isAttached manifest then
    announcing ⟨r.projects.filter fun p => !p.manifest.same manifest⟩ true
  else r.quietly false

def replace (r : Registry) (q : Project) : Registry :=
  ⟨r.projects.map fun p => if p.manifest.same q.manifest then q else p⟩

/-- Replaces the projects that are still attached, and answers them. -/
def commit (r : Registry) (refreshed : List Project) : Change (List Project) :=
  announcing (refreshed.foldl replace r) (refreshed.filter fun q => r.isAttached q.manifest)

/-- Puts host data into the project with a manifest, if there is one. -/
def setHostData (r : Registry) (manifest : Path) (data : String) : Change Bool :=
  quietly ⟨r.projects.map fun p => if p.manifest.same manifest then { p with hostData := some data } else p⟩
    (r.isAttached manifest)

/-- The innermost project that contains a file; of several at one depth, the last. -/
def projectOf? (r : Registry) (t : FileTree) (file : Path) : Option Project :=
  lastMax (fun p => p.directory.depth) (r.projects.filter fun p => p.covers (t.locate file))

/-- The package that a file belongs to, with its project. -/
def packageOf? (r : Registry) (t : FileTree) (file : Path) : Option (Project × Package) :=
  (r.projectOf? t file).bind fun p => (p.packageOf? (t.locate file)).map fun package => (p, package)

end Registry
end CrateYard
