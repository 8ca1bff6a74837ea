import CrateYard.Machine.Basic
import CrateYard.Text.Blank
import CrateYard.Toolchain

/-! The tools of a machine: the programs that answer the questions of a refresh. -/

namespace CrateYard

structure Tools where
  cargo : String
  rustc : String
deriving DecidableEq, Repr

namespace Tools

/-- The command for a question. Only the one about a manifest is asked in a directory of its own. -/
def command (t : Tools) : Call → Command
  | .compiler => ⟨t.rustc, ["-vV"], ⟨"."⟩⟩
  | .sysroot => ⟨t.rustc, ["--print", "sysroot"], ⟨"."⟩⟩
  | .metadata manifest =>
    ⟨t.cargo, ["metadata", "--format-version", "1", "--manifest-path", manifest.text],
      manifest.parent?.getD ⟨"."⟩⟩

/-- What the command of a question writes, read by `read`. -/
def reply (t : Tools) (m : Machine) (call : Call) (read : String → Except ToolError α) : Reply α :=
  let command := t.command call
  match m.spawn command with
  | .error e => ⟨0, .error (.notStarted command.program e.message)⟩
  | .ok (_, process) =>
    ⟨process.duration,
      if process.exit.isSuccess then read (String.ofList (Text.Utf8.decode process.stdout))
      else .error (.failed command.program process.exit.text
        (String.ofList (Text.trim (Text.Utf8.decode process.stderr))))⟩

def readCompiler (t : Tools) (text : String) : Except ToolError Compiler :=
  match Compiler.parse? text with
  | some compiler => .ok compiler
  | none => .error (.unreadable t.rustc text)

def readSysroot (t : Tools) (text : String) : Except ToolError Path :=
  let place := Text.trim text.toList
  if place.isEmpty then .error (.unreadable t.rustc "") else .ok ⟨String.ofList place⟩

def readMetadata (text : String) : Except ToolError Metadata :=
  match Metadata.parse? text with
  | some document => .ok document
  | none => .error (.metadata .malformed)

def toolchain (t : Tools) (m : Machine) : Toolchain :=
  { compiler := t.reply m .compiler t.readCompiler
    sysroot := t.reply m .sysroot t.readSysroot
    metadata := fun manifest => t.reply m (.metadata manifest) readMetadata }

def invocation? (t : Tools) (m : Machine) (call : Call) : Option Invocation :=
  (m.spawn (t.command call)).toOption.map (·.1)

end Tools
end CrateYard
