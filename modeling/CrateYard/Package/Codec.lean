import CrateYard.Json.Record
import CrateYard.Package.Basic

/-! Packages in JSON. A case with fields is an object with one member, whose content is an object of the fields; a
case without content is its name. Reading takes every form in which a record or a case may be written: a record that
is no case may also be an array of its fields, and in a text the fields of a case may be one too. -/

namespace CrateYard

open Json (Form Value Record)

namespace PackageId

def toJson (id : PackageId) : Value :=
  .text id.text

def ofJson? (v : Value) : Option PackageId :=
  v.text?.map PackageId.mk

end PackageId

namespace Path

def toJson (p : Path) : Value :=
  .text p.text

def ofJson? (v : Value) : Option Path :=
  v.text?.map Path.mk

end Path

namespace Edition

def toJson (e : Edition) : Value :=
  .text e.text

def ofJson? (v : Value) : Option Edition := do
  let (tag, content) ← v.case?
  if Value.isUnit content then ofText? tag else none

end Edition

namespace Origin

def text : Origin → String
  | .workspace => "Workspace"
  | .transitive => "TransitiveDependency"

def toJson (o : Origin) : Value :=
  .text o.text

def ofJson? (v : Value) : Option Origin := do
  let (tag, content) ← v.case?
  if Value.isUnit content then
    match tag with
    | "Workspace" => some .workspace
    | "TransitiveDependency" => some .transitive
    | _ => none
  else none

end Origin

namespace Source

def toJson : Source → Value
  | .cratesIo => .text "CratesIo"
  | .registry url => .tagged "Registry" (.record [("url", .text url)])
  | .git url reference commit =>
    .tagged "Git" (.record [("url", .text url), ("reference", .ofOption .text reference),
      ("full_commit", .ofOption .text commit)])
  | .path => .text "Path"
  | .other text => .tagged "Other" (.text text)

def ofJsonIn? (form : Form) (v : Value) : Option Source := do
  let (tag, content) ← v.case?
  match tag, content with
  | "CratesIo", c => if Value.isUnit c then some .cratesIo else none
  | "Path", c => if Value.isUnit c then some .path else none
  | "Registry", some c =>
    let r ← Record.ofContent? form ["url"] c
    return .registry (← r.required "url" Value.text?)
  | "Git", some c =>
    let r ← Record.ofContent? form ["url", "reference", "full_commit"] c
    return .git (← r.required "url" Value.text?) (← r.optional "reference" Value.text?)
      (← r.optional "full_commit" Value.text?)
  | "Other", some c => return .other (← c.text?)
  | _, _ => none

end Source

namespace LibKind

def ofJson? (v : Value) : Option LibKind := do
  let (tag, content) ← v.case?
  if Value.isUnit content then ofText? tag else none

end LibKind

namespace LibKinds

def toJson (s : LibKinds) : Value :=
  .texts (s.toList.map LibKind.text)

def ofJson? (v : Value) : Option LibKinds :=
  (v.list? LibKind.ofJson?).map ofList

end LibKinds

namespace TargetKind

def toJson : TargetKind → Value
  | .lib kinds => .tagged "Lib" kinds.toJson
  | .bin => .text "Bin"
  | .test => .text "Test"
  | .exampleBin => .text "ExampleBin"
  | .exampleLib kinds => .tagged "ExampleLib" kinds.toJson
  | .bench => .text "Bench"
  | .unknown => .text "Unknown"

/-- The kind without content that has this name. -/
def ofUnit? : String → Option TargetKind
  | "Bin" => some .bin
  | "Test" => some .test
  | "ExampleBin" => some .exampleBin
  | "Bench" => some .bench
  | "Unknown" => some .unknown
  | _ => none

def ofJson? (v : Value) : Option TargetKind := do
  let (tag, content) ← v.case?
  match tag, content with
  | "Lib", some c => return .lib (← LibKinds.ofJson? c)
  | "ExampleLib", some c => return .exampleLib (← LibKinds.ofJson? c)
  | tag, c => if Value.isUnit c then ofUnit? tag else none

end TargetKind

namespace Target

def fields : List String := ["name", "kind", "crate_root", "edition", "doctest"]

def toJson (t : Target) : Value :=
  .record [("name", .text t.name), ("kind", t.kind.toJson), ("crate_root", t.crateRoot.toJson),
    ("edition", t.edition.toJson), ("doctest", .bool t.doctest)]

def ofJson? (v : Value) : Option Target := do
  let r ← Record.ofValue? fields v
  return { name := ← r.required "name" Value.text?
           kind := ← r.required "kind" TargetKind.ofJson?
           crateRoot := ← r.required "crate_root" Path.ofJson?
           edition := ← r.required "edition" Edition.ofJson?
           doctest := ← r.required "doctest" Value.bool? }

end Target

namespace Package

def fields : List String :=
  ["id", "name", "version", "root", "origin", "edition", "source", "targets"]

def toJson (p : Package) : Value :=
  .record [("id", p.id.toJson), ("name", .text p.name), ("version", .text p.version),
    ("root", p.root.toJson), ("origin", p.origin.toJson), ("edition", p.edition.toJson),
    ("source", p.source.toJson), ("targets", .ofList Target.toJson p.targets)]

def ofJsonIn? (form : Form) (v : Value) : Option Package := do
  let r ← Record.ofValue? fields v
  return { id := ← r.required "id" PackageId.ofJson?
           name := ← r.required "name" Value.text?
           version := ← r.required "version" Value.text?
           root := ← r.required "root" Path.ofJson?
           origin := ← r.required "origin" Origin.ofJson?
           edition := ← r.required "edition" Edition.ofJson?
           source := ← r.required "source" (Source.ofJsonIn? form)
           targets := ← r.required "targets" (Value.list? Target.ofJson?) }

def ofJson? : Value → Option Package :=
  ofJsonIn? .document

end Package

namespace Dependency

def fields : List String := ["package", "rename"]

def toJson (d : Dependency) : Value :=
  .record [("package", d.package.toJson), ("rename", .ofOption .text d.rename)]

def ofJson? (v : Value) : Option Dependency := do
  let r ← Record.ofValue? fields v
  return { package := ← r.required "package" PackageId.ofJson?
           rename := ← r.optional "rename" Value.text? }

end Dependency
end CrateYard
