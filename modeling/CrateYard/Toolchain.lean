import CrateYard.Metadata
import CrateYard.Project.Compiler
import CrateYard.Workspace.Load

/-! The external tools that a refresh asks: what they are asked, what they answer, and when. -/

namespace CrateYard

inductive ToolError where
  | notStarted (program cause : String)
  | failed (program status stderr : String)
  | metadata (cause : DocumentError)
  | unreadable (program output : String)
deriving DecidableEq, Repr

namespace ToolError

def message : ToolError → String
  | .notStarted program cause => "failed to spawn `" ++ program ++ "`: " ++ cause
  | .failed program status stderr => "`" ++ program ++ "` exited with " ++ status ++ ": " ++ stderr
  | .metadata cause => cause.message
  | .unreadable program output => "unexpected output from `" ++ program ++ "`: " ++ output

end ToolError

inductive Call where
  | compiler
  | sysroot
  | metadata (manifest : Path)
deriving DecidableEq, Repr

/-- An answer, and how many milliseconds after the question it comes. -/
structure Reply (α : Type) where
  delay : Nat
  answer : Except ToolError α

structure Toolchain where
  compiler : Reply Compiler
  sysroot : Reply Path
  metadata : Path → Reply Metadata

end CrateYard
