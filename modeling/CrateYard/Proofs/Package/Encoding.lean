import CrateYard.Package.Codec
import CrateYard.Workspace.Omission
import CrateYard.Proofs.Json.Faithful

/-! Packages and omissions are read back from what is written for them, each part from its own document. -/

namespace CrateYard

open Json (Faithful Form ReadsBack Record Value)

theorem PackageId.faithful : Faithful toJson ofJson? where
  isPlain id := .text id.text
  read_write _ := rfl

theorem Path.faithful : Faithful toJson ofJson? where
  isPlain p := .text p.text
  read_write _ := rfl

theorem Edition.faithful : Faithful toJson ofJson? where
  isPlain e := .text e.text
  read_write := ofText?_text

theorem Origin.faithful : Faithful toJson ofJson? where
  isPlain o := .text o.text
  read_write o := by cases o <;> rfl

theorem LibKind.ofText?_text (k : LibKind) : ofText? k.text = some k := by
  cases k <;> decide

theorem LibKind.faithful : Faithful (fun k => Value.text k.text) ofJson? where
  isPlain k := .text k.text
  read_write := ofText?_text

theorem LibKinds.ofList_toList (s : LibKinds) : ofList s.toList = s := by
  apply ext_contains
  intro k
  have hmem : k ∈ LibKind.all := by cases k <;> decide
  rw [contains_ofList]
  simp [toList, hmem]

theorem LibKinds.faithful : Faithful toJson ofJson? where
  isPlain s := .ofList Value.IsPlain.text _
  read_write s := by
    have hlist : (Value.list? LibKind.ofJson?) s.toJson = some s.toList := by
      rw [toJson, Value.texts, Value.ofList, List.map_map]
      exact LibKind.faithful.ofList.read_write s.toList
    rw [ofJson?, hlist, Option.map_some, ofList_toList]

theorem TargetKind.faithful : Faithful toJson ofJson? where
  isPlain k := by
    cases k with
    | lib kinds | exampleLib kinds => exact .tagged (LibKinds.faithful.isPlain kinds)
    | bin | test | exampleBin | bench | unknown => exact .text _
  read_write k := by
    cases k with
    | lib kinds | exampleLib kinds =>
      have hkinds := LibKinds.faithful.read_write kinds
      simp [ofJson?, toJson, Value.tagged, Value.record, Value.case?, hkinds]
    | bin | test | exampleBin | bench | unknown => rfl

theorem Source.faithful (form : Form) : Faithful toJson (ofJsonIn? form) where
  isPlain s := by
    cases s with
    | cratesIo | path => exact .text _
    | registry url => exact .tagged (.record (by simp [Value.IsPlain.text]))
    | git url reference commit =>
      exact .tagged (.record (by simp [Value.IsPlain.text, Value.IsPlain.ofOption]))
    | other text => exact .tagged (.text text)
  read_write s := by
    cases s with
    | cratesIo | path | other text => rfl
    | registry url =>
      simp only [ofJsonIn?, toJson, Value.case?_tagged, Option.bind_eq_bind, Option.bind_some]
      refine Record.bind_ofContent?_record (by simp) fun r h => ?_
      have hurl : r.required "url" Value.text? = some url := h.required .text (by simp)
      rw [hurl]
      rfl
    | git url reference commit =>
      simp only [ofJsonIn?, toJson, Value.case?_tagged, Option.bind_eq_bind, Option.bind_some]
      refine Record.bind_ofContent?_record (by simp) fun r h => ?_
      have hurl : r.required "url" Value.text? = some url := h.required .text (by simp)
      have hreference : r.optional "reference" Value.text? = some reference :=
        h.optional .text Value.text_ne_null (by simp)
      have hcommit : r.optional "full_commit" Value.text? = some commit := h.optional .text Value.text_ne_null (by simp)
      rw [hurl, hreference, hcommit]
      rfl

theorem Target.faithful : Faithful toJson ofJson? where
  isPlain t := by
    apply Value.IsPlain.record
    simp [Value.IsPlain.text, Value.IsPlain.bool, TargetKind.faithful.isPlain, Path.faithful.isPlain,
      Edition.faithful.isPlain]
  read_write t := by
    rw [ofJson?, toJson]
    refine Record.bind_ofValue?_record (by simp) fun r h => ?_
    have hname : r.required "name" Value.text? = some t.name := h.required .text (by simp)
    have hkind : r.required "kind" TargetKind.ofJson? = some t.kind := h.required TargetKind.faithful (by simp)
    have hroot : r.required "crate_root" Path.ofJson? = some t.crateRoot := h.required Path.faithful (by simp)
    have hedition : r.required "edition" Edition.ofJson? = some t.edition := h.required Edition.faithful (by simp)
    have hdoctest : r.required "doctest" Value.bool? = some t.doctest := h.required .bool (by simp)
    rw [hname, hkind, hroot, hedition, hdoctest]
    rfl

theorem Package.faithful (form : Form) : Faithful toJson (ofJsonIn? form) where
  isPlain p := by
    apply Value.IsPlain.record
    simp [Value.IsPlain.text, Value.IsPlain.ofList, PackageId.faithful.isPlain, Path.faithful.isPlain,
      Origin.faithful.isPlain, Edition.faithful.isPlain, (Source.faithful form).isPlain, Target.faithful.isPlain]
  read_write p := by
    rw [ofJsonIn?, toJson]
    refine Record.bind_ofValue?_record (by simp) fun r h => ?_
    have hid : r.required "id" PackageId.ofJson? = some p.id := h.required PackageId.faithful (by simp)
    have hname : r.required "name" Value.text? = some p.name := h.required .text (by simp)
    have hversion : r.required "version" Value.text? = some p.version := h.required .text (by simp)
    have hroot : r.required "root" Path.ofJson? = some p.root := h.required Path.faithful (by simp)
    have horigin : r.required "origin" Origin.ofJson? = some p.origin := h.required Origin.faithful (by simp)
    have hedition : r.required "edition" Edition.ofJson? = some p.edition := h.required Edition.faithful (by simp)
    have hsource : r.required "source" (Source.ofJsonIn? form) = some p.source :=
      h.required (Source.faithful form) (by simp)
    have htargets : r.required "targets" (Value.list? Target.ofJson?) = some p.targets :=
      h.required Target.faithful.ofList (by simp)
    rw [hid, hname, hversion, hroot, horigin, hedition, hsource, htargets]
    rfl

theorem Dependency.faithful : Faithful toJson ofJson? where
  isPlain d := by
    apply Value.IsPlain.record
    simp [PackageId.faithful.isPlain, Value.IsPlain.ofOption, Value.IsPlain.text]
  read_write d := by
    rw [ofJson?, toJson]
    refine Record.bind_ofValue?_record (by simp) fun r h => ?_
    have hpackage : r.required "package" PackageId.ofJson? = some d.package := h.required PackageId.faithful (by simp)
    have hrename : r.optional "rename" Value.text? = some d.rename := h.optional .text Value.text_ne_null (by simp)
    rw [hpackage, hrename]
    rfl

theorem OmissionCause.faithful (form : Form) : Faithful toJson (ofJsonIn? form) where
  isPlain c := by
    cases c with
    | repeatedId | unlisted => exact .text _
    | badManifestPath path | sourceMissing path => exact .tagged (.text path)
    | rootMissing path message => exact .tagged (.record (by simp [Path.faithful.isPlain, Value.IsPlain.text]))
  read_write c := by
    cases c with
    | repeatedId | unlisted | badManifestPath path | sourceMissing path => rfl
    | rootMissing path message =>
      simp only [ofJsonIn?, toJson, Value.case?_tagged, Option.bind_eq_bind, Option.bind_some]
      refine Record.bind_ofContent?_record (by simp) fun r h => ?_
      have hpath : r.required "path" Path.ofJson? = some path := h.required Path.faithful (by simp)
      have hmessage : r.required "message" Value.text? = some message := h.required .text (by simp)
      rw [hpath, hmessage]
      rfl

theorem Omission.faithful (form : Form) : Faithful toJson (ofJsonIn? form) where
  isPlain o := by
    have hid := PackageId.faithful.isPlain
    have hcause := (OmissionCause.faithful form).isPlain
    cases o with
    | package id cause => exact .tagged (.record (by simp [hid, hcause]))
    | target owner name cause => exact .tagged (.record (by simp [hid, hcause, Value.IsPlain.text]))
    | dependency source needed cause => exact .tagged (.record (by simp [hid, hcause]))
  read_write o := by
    cases o with
    | package id cause =>
      simp only [ofJsonIn?, toJson, Value.case?_tagged, Option.bind_eq_bind, Option.bind_some]
      refine Record.bind_ofContent?_record (by simp) fun r h => ?_
      have hid : r.required "id" PackageId.ofJson? = some id := h.required PackageId.faithful (by simp)
      have hcause : r.required "reason" (OmissionCause.ofJsonIn? form) = some cause :=
        h.required (OmissionCause.faithful form) (by simp)
      rw [hid, hcause]
      rfl
    | target owner name cause =>
      simp only [ofJsonIn?, toJson, Value.case?_tagged, Option.bind_eq_bind, Option.bind_some]
      refine Record.bind_ofContent?_record (by simp) fun r h => ?_
      have howner : r.required "package" PackageId.ofJson? = some owner := h.required PackageId.faithful (by simp)
      have hname : r.required "name" Value.text? = some name := h.required .text (by simp)
      have hcause : r.required "reason" (OmissionCause.ofJsonIn? form) = some cause :=
        h.required (OmissionCause.faithful form) (by simp)
      rw [howner, hname, hcause]
      rfl
    | dependency source needed cause =>
      simp only [ofJsonIn?, toJson, Value.case?_tagged, Option.bind_eq_bind, Option.bind_some]
      refine Record.bind_ofContent?_record (by simp) fun r h => ?_
      have hsource : r.required "from" PackageId.ofJson? = some source := h.required PackageId.faithful (by simp)
      have hneeded : r.required "to" PackageId.ofJson? = some needed := h.required PackageId.faithful (by simp)
      have hcause : r.required "reason" (OmissionCause.ofJsonIn? form) = some cause :=
        h.required (OmissionCause.faithful form) (by simp)
      rw [hsource, hneeded, hcause]
      rfl

/-- In texts and in documents, packages and omissions are read back as they were written. -/
theorem packages_and_omissions_read_back (form : Form) :
    ReadsBack Package.toJson (Package.ofJsonIn? form) ∧ ReadsBack Omission.toJson (Omission.ofJsonIn? form) :=
  ⟨(Package.faithful form).readsBack, (Omission.faithful form).readsBack⟩

end CrateYard
