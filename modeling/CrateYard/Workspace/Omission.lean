import CrateYard.Package.Codec

/-! What a workspace graph leaves out, and why. -/

namespace CrateYard

open Json (Form Value Record)

inductive OmissionCause where
  | repeatedId
  | badManifestPath (path : String)
  | rootMissing (path : Path) (message : String)
  | sourceMissing (path : String)
  | unlisted
deriving DecidableEq, Repr, Inhabited

inductive Omission where
  | package (id : PackageId) (cause : OmissionCause)
  | target (owner : PackageId) (name : String) (cause : OmissionCause)
  | dependency (source : PackageId) (needed : PackageId) (cause : OmissionCause)
deriving DecidableEq, Repr, Inhabited

namespace OmissionCause

def message : OmissionCause → String
  | .repeatedId => "duplicate package id"
  | .badManifestPath path => "invalid manifest path `" ++ path ++ "`"
  | .rootMissing path message => "package root `" ++ path.text ++ "` not found: " ++ message
  | .sourceMissing path => "crate root `" ++ path ++ "` not found"
  | .unlisted => "dependency package is not part of the graph"

def toJson : OmissionCause → Value
  | .repeatedId => .text "DuplicateId"
  | .badManifestPath path => .tagged "InvalidManifestPath" (.text path)
  | .rootMissing path message =>
    .tagged "PackageRootNotFound" (.record [("path", path.toJson), ("message", .text message)])
  | .sourceMissing path => .tagged "CrateRootNotFound" (.text path)
  | .unlisted => .text "UnknownPackage"

def ofJsonIn? (form : Form) (v : Value) : Option OmissionCause := do
  let (tag, content) ← v.case?
  match tag, content with
  | "DuplicateId", c => if Value.isUnit c then some .repeatedId else none
  | "UnknownPackage", c => if Value.isUnit c then some .unlisted else none
  | "InvalidManifestPath", some c => return .badManifestPath (← c.text?)
  | "CrateRootNotFound", some c => return .sourceMissing (← c.text?)
  | "PackageRootNotFound", some c =>
    let r ← Record.ofContent? form ["path", "message"] c
    return .rootMissing (← r.required "path" Path.ofJson?) (← r.required "message" Value.text?)
  | _, _ => none

end OmissionCause

namespace Omission

def cause : Omission → OmissionCause
  | .package _ cause | .target _ _ cause | .dependency _ _ cause => cause

def message : Omission → String
  | .package id cause => "package `" ++ id.text ++ "` dropped: " ++ cause.message
  | .target owner name cause =>
    "target `" ++ name ++ "` of `" ++ owner.text ++ "` dropped: " ++ cause.message
  | .dependency source needed cause =>
    "dependency `" ++ source.text ++ "` -> `" ++ needed.text ++ "` dropped: " ++ cause.message

def toJson : Omission → Value
  | .package id cause => .tagged "Package" (.record [("id", id.toJson), ("reason", cause.toJson)])
  | .target owner name cause =>
    .tagged "Target" (.record [("package", owner.toJson), ("name", .text name), ("reason", cause.toJson)])
  | .dependency source needed cause =>
    .tagged "Dependency"
      (.record [("from", source.toJson), ("to", needed.toJson), ("reason", cause.toJson)])

def ofJsonIn? (form : Form) (v : Value) : Option Omission := do
  let (tag, content) ← v.case?
  match tag, content with
  | "Package", some c =>
    let r ← Record.ofContent? form ["id", "reason"] c
    return .package (← r.required "id" PackageId.ofJson?) (← r.required "reason" (OmissionCause.ofJsonIn? form))
  | "Target", some c =>
    let r ← Record.ofContent? form ["package", "name", "reason"] c
    return .target (← r.required "package" PackageId.ofJson?) (← r.required "name" Value.text?)
      (← r.required "reason" (OmissionCause.ofJsonIn? form))
  | "Dependency", some c =>
    let r ← Record.ofContent? form ["from", "to", "reason"] c
    return .dependency (← r.required "from" PackageId.ofJson?) (← r.required "to" PackageId.ofJson?)
      (← r.required "reason" (OmissionCause.ofJsonIn? form))
  | _, _ => none

def ofJson? : Value → Option Omission :=
  ofJsonIn? .document

end Omission
end CrateYard
