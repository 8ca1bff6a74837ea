import CrateYard.Json.Reader
import CrateYard.Json.Record
import CrateYard.Machine.Basic

/-! A machine described in JSON. The tree is a list of entries, each made in its turn: `d` a directory, `f` a file with
content `c`, `l` a link to `to`, and `rm` what is removed. Content is a text or an object whose member `hex` has two
digits for each byte. The programs are an object of objects: by place, then by first argument. -/

namespace CrateYard

open Json (Value)

namespace Json.Value

def hexValue (c : Char) : Nat :=
  if c.isDigit then c.toNat - '0'.toNat
  else if 'a' ≤ c && c ≤ 'f' then c.toNat - 'a'.toNat + 10
  else if 'A' ≤ c && c ≤ 'F' then c.toNat - 'A'.toNat + 10
  else 0

def hexBytes : List Char → List UInt8
  | high :: low :: rest => (16 * hexValue high + hexValue low).toUInt8 :: hexBytes rest
  | _ => []

def memberText? (v : Value) (name : String) : Option String :=
  (v.member? name).bind Value.text?

def namedMembers : Value → List (String × Value)
  | .object members => members.filterMap fun m => m.1.map fun name => (name, m.2)
  | _ => []

def items : Value → List Value
  | .array items => items
  | _ => []

def bytes (v : Value) : List UInt8 :=
  match v with
  | .string (some s) => Text.Utf8.encode s
  | v => hexBytes ((v.memberText? "hex").getD "").toList

end Json.Value

namespace FileTree

def describe (t : FileTree) (v : Value) : FileTree :=
  match v.memberText? "d", v.memberText? "f", v.memberText? "l", v.memberText? "rm" with
  | some dir, _, _, _ => t.makeDirectory ⟨dir⟩
  | none, some file, _, _ => t.writeFile ⟨file⟩ ((v.member? "c").map Value.bytes |>.getD [])
  | none, none, some link, _ => t.setLink ⟨link⟩ ((v.memberText? "to").getD "")
  | none, none, none, some path => t.remove ⟨path⟩
  | none, none, none, none => t

def describeAll (t : FileTree) (entries : List Value) : FileTree :=
  entries.foldl describe t

end FileTree

namespace Process

/-- How a described run ends. A run that hangs ends in the same way, but late. -/
def ofJson (v : Value) : Process :=
  let number (name : String) : Nat := ((v.member? name).bind Value.word64?).getD 0
  { stdout := ((v.member? "stdout").map Value.bytes).getD []
    stderr := ((v.member? "stderr").map Value.bytes).getD []
    exit := if number "signal" = 0 then .code (number "exit" % 256) else .signal (number "signal")
    duration := if (v.member? "hang").bind Value.bool? = some true then hanging else promptly }

end Process

namespace Machine

/-- The machine with a tree and described programs. -/
def describe (t : FileTree) (tools : Value) : Machine :=
  tools.namedMembers.foldl
    (fun m tool => m.install ⟨⟨tool.1⟩, tool.2.namedMembers.map fun a => (a.1, Process.ofJson a.2)⟩) ⟨t, []⟩

/-- The machine that a text describes, with the tree under `fs` and the programs under `tools`. -/
def ofText (text : String) : Machine :=
  let description := (Value.parse? text).getD .null
  describe ((FileTree.fresh ["@"]).describeAll (((description.member? "fs").map Value.items).getD []))
    ((description.member? "tools").getD .null)

end Machine
end CrateYard
