import CrateYard.Machine.Basic
import CrateYard.Project.Basic
import CrateYard.Text.Blank

/-! The command that builds a project. -/

namespace CrateYard.Build

/-- The flag that asks for records that machines can read. -/
def recordFlag : String := "--message-format=json-diagnostic-rendered-ansi"

def taskWords (task : String) : List String :=
  (Text.words task.toList).map String.ofList

def command (cargo : String) (project : Project) (task : String) (isTest : Bool) : Command :=
  let words := taskWords task
  { program := cargo
    args := (if isTest then ["test", "--no-run"] else [words.headD "build"]) ++ words.tail ++
      [recordFlag, "--manifest-path", project.manifest.text]
    workdir := project.directory }

end CrateYard.Build
