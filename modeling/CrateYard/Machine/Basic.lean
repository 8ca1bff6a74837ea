import CrateYard.FileTree.Edit
import CrateYard.Machine.Exit
import CrateYard.Text.Utf8

/-! A machine: a file tree and the programs on it. A program answers by its first argument; running it changes
nothing. -/

namespace CrateYard

structure Command where
  program : String
  args : List String
  workdir : Path
deriving DecidableEq, Repr

/-- What a run of a program writes, how it ends, and after how many milliseconds. -/
structure Process where
  stdout : List UInt8
  stderr : List UInt8
  exit : Exit
  duration : Nat
deriving DecidableEq, Repr

/-- A program, its place, and its answers by first argument. -/
structure Program where
  place : Path
  answers : List (String × Process)

structure Machine where
  tree : FileTree
  programs : List Program

/-- A run that took place. -/
structure Invocation where
  program : Path
  workdir : Path
  args : List String
deriving DecidableEq, Repr

inductive SpawnError where
  | path (cause : PathError)
  | nulByte
deriving DecidableEq, Repr

namespace SpawnError

def message : SpawnError → String
  | .path cause => cause.message
  | .nulByte => "nul byte found in provided data"

end SpawnError

namespace Process

/-- How long a program takes that does not hang. -/
def promptly : Nat := 1

/-- How long a program takes that hangs. -/
def hanging : Nat := 30000

/-- The end of a program that has no answer. -/
def unanswered (arg : String) : Process :=
  ⟨[], Text.Utf8.encode ("no response for " ++ arg ++ "\n"), .code 97, promptly⟩

end Process

namespace Machine

def install (m : Machine) (p : Program) : Machine :=
  { tree := m.tree.writeFile p.place [], programs := m.programs ++ [p] }

def hasNul (s : String) : Bool :=
  s.toList.contains '\x00'

def directory (m : Machine) (dir : Path) : Except PathError Location := do
  let place ← m.tree.reach dir
  match m.tree.entry? place with
  | some .directory => .ok place
  | some _ => .error .notDirectory
  | none => .error .notFound

/-- The program that a name means in a directory. A name without a slash means none: there is no search path. -/
def program (m : Machine) (name : String) (workdir : Location) : Except PathError Program := do
  if !name.toList.contains '/' then throw .notFound
  let place ← { m.tree with workdir := workdir }.reach ⟨name⟩
  match m.programs.find? fun p => (m.tree.reach p.place).toOption = some place with
  | some p => .ok p
  | none => if (m.tree.entry? place).isSome then .error .permissionDenied else .error .notFound

/-- Runs a command: the directory is entered first, then the program is looked for. -/
def spawn (m : Machine) (c : Command) : Except SpawnError (Invocation × Process) :=
  if (c.program :: c.workdir.text :: c.args).any hasNul then .error .nulByte
  else
    Except.mapError .path do
      let workdir ← m.directory c.workdir
      let program ← m.program c.program workdir
      let first := c.args.headD ""
      return (⟨program.place, workdir.toPath, c.args⟩, (program.answers.lookup first).getD (.unanswered first))

end Machine
end CrateYard
