import CrateYard.Metadata
import CrateYard.Proofs.Json.Reading
import CrateYard.Proofs.Json.Written

/-! The metadata document as other versions of the build tool may print it. Whatever the order of the members of its
objects, whatever white space there is, whatever members with other names there are and whichever members are left out
because they hold their default, it is read as the same metadata; a member of a record that is there twice makes it no
metadata at all. -/

namespace CrateYard

namespace Metadata

open Json (IsDocument Literal Record Slot Understands Value Writable WritesBool WritesList WritesObject WritesText
  WritesWord understands_bool understands_text understands_word writable_bool writable_text)

/-! Objects that write the records of the document. -/

namespace Target

def slots (t : Target) : List Slot :=
  [.defaulted "kind" (WritesList WritesText) [] t.kind, .required "name" WritesText t.name,
    .defaulted "src_path" WritesText "" t.srcPath, .defaulted "crate_types" (WritesList WritesText) [] t.crateTypes,
    .optional "edition" WritesText t.edition, .optional "doctest" WritesBool t.doctest]

def Writes (t : Target) (v : Value) : Prop :=
  WritesObject t.slots v

theorem understands : Understands ofJson? Writes := by
  refine Record.understands_object (fun _ => rfl) (by decide) fun t r hfits => ?_
  simp only [slots, List.forall_mem_cons] at hfits
  obtain ⟨hkind, hname, hsrcPath, hcrateTypes, hedition, hdoctest, -⟩ := hfits
  simp [hkind.defaulted understands_text.list, hname.required understands_text, hsrcPath.defaulted understands_text,
    hcrateTypes.defaulted understands_text.list, hedition.optional understands_text rfl,
    hdoctest.optional understands_bool rfl]

theorem writable : Writable Writes := by
  intro t
  apply Json.exists_writesObject
  simp only [slots, List.forall_mem_cons]
  exact ⟨writable_text.list t.kind, writable_text t.name, writable_text t.srcPath, writable_text.list t.crateTypes,
    writable_text.option t.edition, writable_bool.option t.doctest, List.forall_mem_nil _⟩

end Target

namespace Package

def slots (p : Package) : List Slot :=
  [.required "name" WritesText p.name, .required "version" WritesText p.version, .required "id" WritesText p.id,
    .optional "source" WritesText p.source, .defaulted "manifest_path" WritesText "" p.manifestPath,
    .defaulted "targets" (WritesList Target.Writes) [] p.targets, .optional "edition" WritesText p.edition]

def Writes (p : Package) (v : Value) : Prop :=
  WritesObject p.slots v

theorem understands : Understands ofJson? Writes := by
  refine Record.understands_object (fun _ => rfl) (by decide) fun p r hfits => ?_
  simp only [slots, List.forall_mem_cons] at hfits
  obtain ⟨hname, hversion, hid, hsource, hmanifestPath, htargets, hedition, -⟩ := hfits
  simp [hname.required understands_text, hversion.required understands_text, hid.required understands_text,
    hsource.optional understands_text rfl, hmanifestPath.defaulted understands_text,
    htargets.defaulted Target.understands.list, hedition.optional understands_text rfl]

theorem writable : Writable Writes := by
  intro p
  apply Json.exists_writesObject
  simp only [slots, List.forall_mem_cons]
  exact ⟨writable_text p.name, writable_text p.version, writable_text p.id, writable_text.option p.source,
    writable_text p.manifestPath, Target.writable.list p.targets, writable_text.option p.edition, List.forall_mem_nil _⟩

end Package

namespace NamedEdge

def slots (e : NamedEdge) : List Slot :=
  [.required "name" WritesText e.name, .required "pkg" WritesText e.package]

def Writes (e : NamedEdge) (v : Value) : Prop :=
  WritesObject e.slots v

theorem understands : Understands ofJson? Writes := by
  refine Record.understands_object (fun _ => rfl) (by decide) fun e r hfits => ?_
  simp only [slots, List.forall_mem_cons] at hfits
  obtain ⟨hname, hpackage, -⟩ := hfits
  simp [hname.required understands_text, hpackage.required understands_text]

theorem writable : Writable Writes := by
  intro e
  apply Json.exists_writesObject
  simp only [slots, List.forall_mem_cons]
  exact ⟨writable_text e.name, writable_text e.package, List.forall_mem_nil _⟩

end NamedEdge

namespace Node

def slots (n : Node) : List Slot :=
  [.required "id" WritesText n.id, .defaulted "dependencies" (WritesList WritesText) [] n.dependencies,
    .optional "deps" (WritesList NamedEdge.Writes) n.named]

def Writes (n : Node) (v : Value) : Prop :=
  WritesObject n.slots v

theorem understands : Understands ofJson? Writes := by
  refine Record.understands_object (fun _ => rfl) (by decide) fun n r hfits => ?_
  simp only [slots, List.forall_mem_cons] at hfits
  obtain ⟨hid, hdependencies, hnamed, -⟩ := hfits
  simp [hid.required understands_text, hdependencies.defaulted understands_text.list,
    hnamed.optional NamedEdge.understands.list rfl]

theorem writable : Writable Writes := by
  intro n
  apply Json.exists_writesObject
  simp only [slots, List.forall_mem_cons]
  exact ⟨writable_text n.id, writable_text.list n.dependencies, NamedEdge.writable.list.option n.named,
    List.forall_mem_nil _⟩

end Node

def nodeSlots (nodes : List Node) : List Slot :=
  [.defaulted "nodes" (WritesList Node.Writes) [] nodes]

def WritesNodes (nodes : List Node) (v : Value) : Prop :=
  WritesObject (nodeSlots nodes) v

theorem understands_nodes : Understands nodesOfJson? WritesNodes := by
  refine Record.understands_object (fun _ => rfl) (List.nodup_singleton _) fun nodes r hfits => ?_
  simp only [nodeSlots, List.forall_mem_cons] at hfits
  exact hfits.1.defaulted Node.understands.list

theorem writable_nodes : Writable WritesNodes := by
  intro nodes
  apply Json.exists_writesObject
  simp only [nodeSlots, List.forall_mem_cons]
  exact ⟨Node.writable.list nodes, List.forall_mem_nil _⟩

def slots (m : Metadata) : List Slot :=
  [.optional "version" WritesWord m.version, .defaulted "packages" (WritesList Package.Writes) [] m.packages,
    .optional "workspace_members" (WritesList WritesText) m.members, .optional "resolve" WritesNodes m.resolve,
    .optional "workspace_root" WritesText m.workspaceRoot]

def Writes (m : Metadata) (v : Value) : Prop :=
  WritesObject m.slots v

theorem understands : Understands ofJson? Writes := by
  refine Record.understands_object (fun _ => rfl) (by decide) fun m r hfits => ?_
  simp only [slots, List.forall_mem_cons] at hfits
  obtain ⟨hversion, hpackages, hmembers, hresolve, hworkspaceRoot, -⟩ := hfits
  simp [hversion.optional understands_word rfl, hpackages.defaulted Package.understands.list,
    hmembers.optional understands_text.list rfl, hresolve.optional understands_nodes rfl,
    hworkspaceRoot.optional understands_text rfl]

theorem exists_writes (m : Metadata) (hversion : ∀ n, m.version = some n → n < 2 ^ 64) : ∃ v, m.Writes v := by
  have hword : ∃ v, Json.WritesOption WritesWord m.version v := by
    cases h : m.version with
    | none => exact ⟨.null, rfl⟩
    | some n => exact ⟨.nat n, rfl, hversion n h⟩
  apply Json.exists_writesObject
  simp only [slots, List.forall_mem_cons]
  exact ⟨hword, Package.writable.list m.packages, writable_text.list.option m.members, writable_nodes.option m.resolve,
    writable_text.option m.workspaceRoot, List.forall_mem_nil _⟩

/-! The records of a document, and what becomes of one that names a member twice. -/

inductive Kind where
  | document
  | package
  | target
  | resolve
  | node
  | edge
deriving DecidableEq, Repr

namespace Kind

def fields : Kind → List String
  | document => Metadata.fields
  | package => Package.fields
  | target => Target.fields
  | resolve => ["nodes"]
  | node => Node.fields
  | edge => NamedEdge.fields

/-- The member that lists records, and the kind of these. -/
def list? : Kind → Option (String × Kind)
  | document => some ("packages", package)
  | package => some ("targets", target)
  | resolve => some ("nodes", node)
  | node => some ("deps", edge)
  | target | edge => none

def Reads : Kind → Value → Prop
  | document, v => (Metadata.ofJson? v).isSome
  | package, v => (Package.ofJson? v).isSome
  | target, v => (Target.ofJson? v).isSome
  | resolve, v => (nodesOfJson? v).isSome
  | node, v => (Node.ofJson? v).isSome
  | edge, v => (NamedEdge.ofJson? v).isSome

end Kind

/-- A place for a record inside another record: an item of the list of records that it has, or its edges as a whole. -/
inductive Inside : Kind → Value → Kind → Value → Prop where
  | item {k k' : Kind} {field : String} {members : List (Literal × Value)} {items : List Value} {v : Value}
    (hk : k.list? = some (field, k')) (hm : (some field, .array items) ∈ members) (hv : v ∈ items) :
    Inside k (.object members) k' v
  | resolve {members more : List (Literal × Value)} (hm : (some "resolve", .object more) ∈ members) :
    Inside .document (.object members) .resolve (.object more)

/-- A place for a record of the document, at any depth. -/
inductive Places (root : Value) : Kind → Value → Prop where
  | root : Places root .document root
  | inside {k k' : Kind} {v v' : Value} (h : Places root k v) (h' : Inside k v k' v') : Places root k' v'

/-- At some place for a record, an object names a member of the record twice. -/
def Repeats (root : Value) : Prop :=
  ∃ k members, Places root k (.object members) ∧ Record.Repeats k.fields members

variable {k k' : Kind} {v v' root : Value}

theorem Kind.exists_record (h : k.Reads v) : ∃ r, Record.ofValue? k.fields v = some r := by
  cases k with
  | document | package | target | resolve | node | edge =>
    obtain ⟨r, -, hr, -⟩ := Record.exists_make h
    exact ⟨r, hr⟩

/-- What stands at the place of a record must be read for the record around it to be read. -/
theorem Inside.reads (h : Inside k v k' v') (hv : k.Reads v) : k'.Reads v' := by
  cases h with
  | item hk hm hmem =>
    cases k with
    | target | edge => cases hk
    | document =>
      cases hk
      obtain ⟨r, a, hr, hmake⟩ := Record.exists_make hv
      simp only [Option.bind_eq_bind, Option.bind_eq_some_iff] at hmake
      obtain ⟨-, -, packages, hpackages, -⟩ := hmake
      exact Record.isSome_of_defaulted hpackages (Record.presence_of_mem hr (by decide) hm) hmem
    | package =>
      cases hk
      obtain ⟨r, a, hr, hmake⟩ := Record.exists_make hv
      simp only [Option.bind_eq_bind, Option.bind_eq_some_iff] at hmake
      obtain ⟨-, -, -, -, -, -, -, -, -, -, targets, htargets, -⟩ := hmake
      exact Record.isSome_of_defaulted htargets (Record.presence_of_mem hr (by decide) hm) hmem
    | resolve =>
      cases hk
      obtain ⟨r, nodes, hr, hmake⟩ := Record.exists_make hv
      exact Record.isSome_of_defaulted hmake (Record.presence_of_mem hr (by decide) hm) hmem
    | node =>
      cases hk
      obtain ⟨r, a, hr, hmake⟩ := Record.exists_make hv
      simp only [Option.bind_eq_bind, Option.bind_eq_some_iff] at hmake
      obtain ⟨-, -, -, -, named, hnamed, -⟩ := hmake
      have hedges := Record.isSome_of_optional hnamed (Record.presence_of_mem hr (by decide) hm) nofun
      exact Value.isSome_of_list? hedges hmem
  | resolve hm =>
    obtain ⟨r, a, hr, hmake⟩ := Record.exists_make hv
    simp only [Option.bind_eq_bind, Option.bind_eq_some_iff] at hmake
    obtain ⟨-, -, -, -, -, -, resolve, hresolve, -⟩ := hmake
    exact Record.isSome_of_optional hresolve (Record.presence_of_mem hr (by decide) hm) nofun

theorem Places.reads (h : Places root k v) (hroot : Kind.document.Reads root) : k.Reads v := by
  induction h with
  | root => exact hroot
  | inside h h' ih => exact h'.reads ih

theorem ofJson?_of_repeats (h : Repeats v) : ofJson? v = none := by
  obtain ⟨k, members, hplace, hrepeats⟩ := h
  by_contra hread
  obtain ⟨r, hr⟩ := Kind.exists_record (hplace.reads (Option.isSome_iff_ne_none.2 hread))
  rw [Record.ofValue?_of_repeats hrepeats] at hr
  cases hr

/-- All metadata, with a version of 64 bits if it has one, can be written; and every text that writes it, with the
members of its objects in whatever order, with whatever white space, without members that hold their default and with
any others, is read as it. A text in which a record has one of its members twice is not read at all. -/
theorem parse?_tolerant :
    (∀ m : Metadata, (∀ n, m.version = some n → n < 2 ^ 64) → ∃ text v, IsDocument text v ∧ m.Writes v) ∧
    ∀ text v, IsDocument text v →
      (∀ m : Metadata, m.Writes v → parse? text = some m) ∧ (Repeats v → parse? text = none) := by
  refine ⟨fun m hversion => ?_, fun text v h => ?_⟩
  · obtain ⟨v, hv⟩ := exists_writes m hversion
    obtain ⟨text, htext⟩ := Json.exists_document v
    exact ⟨text, v, htext, hv⟩
  · rw [parse?, h.parse?_eq]
    exact ⟨fun m hm => understands m v hm, ofJson?_of_repeats⟩

/-! A document whose members stand in another order than the records have them, with white space, a name that is
written with an escape, a member that no record has and most others left out; and one that gives its version twice. -/

section

open Json (Item Member Numeral Piece Spelling commas)

/-- The pieces of a text that needs no escape. -/
def plain (s : String) : List Piece :=
  s.toList.filterMap fun c =>
    if h : 0x20 ≤ c.toNat ∧ c ≠ '"' ∧ c ≠ '\\' then some (.plain c h) else none

def member (name : List Piece) (text : List Char) (v : Value) : Member :=
  ⟨[], name, [], ⟨[], text, v, []⟩⟩

def escapedName : List Piece := [.unit ⟨0, false⟩ ⟨0, false⟩ ⟨6, false⟩ ⟨1, false⟩]

def oneNumeral : Numeral := .digit ⟨1, by decide⟩

def unknownNumber : Numeral :=
  { oneNumeral with
    isNegative := true
    fraction := [⟨5, by decide⟩]
    exponent := some ⟨false, .minus, ⟨3, by decide⟩, []⟩ }

def versionMember : Member :=
  member (plain "version") oneNumeral.chars (.number oneNumeral.number)

def packageMembers : List Member :=
  [member (plain "x") unknownNumber.chars (.number unknownNumber.number),
    member (plain "id") (Piece.quoted (plain "a 1")) (.text "a 1"),
    member (plain "version") (Piece.quoted (plain "1")) (.text "1"),
    member (plain "name") (Piece.quoted escapedName) (.text "a")]

def packageItem : Item :=
  ⟨[.space], '\x7b' :: commas (packageMembers.map Member.chars) ++ ['\x7d'],
    .object (packageMembers.map Member.entry), [.newline]⟩

def documentMembers : List Member :=
  [member (plain "packages") ('[' :: commas [packageItem.chars] ++ [']']) (.array [packageItem.value]),
    versionMember]

def lonePackage : Package := ⟨"a", "1", "a 1", none, "", [], none⟩

theorem spelling_packageItem : Spelling packageItem.text packageItem.value := by
  refine @Spelling.object packageMembers (List.cons_ne_nil _ _) ?_
  simp only [packageMembers, List.forall_mem_cons]
  exact ⟨.number unknownNumber, .string _, .string _, .string escapedName, List.forall_mem_nil _⟩

theorem isDocument_reordered : IsDocument ("\x7b\"packages\":[ " ++
    "\x7b\"x\":-1.5e-3,\"id\":\"a 1\",\"version\":\"1\",\"name\":\"\\u0061\"\x7d\n],\"version\":1\x7d")
    (.object (documentMembers.map Member.entry)) := by
  refine ⟨⟨[], '\x7b' :: commas (documentMembers.map Member.chars) ++ ['\x7d'], _, []⟩, ?_, by decide, rfl⟩
  refine @Spelling.object documentMembers (List.cons_ne_nil _ _) ?_
  simp only [documentMembers, List.forall_mem_cons]
  exact ⟨@Spelling.array [packageItem] (List.cons_ne_nil _ _) (by simpa using spelling_packageItem), .number oneNumeral,
    List.forall_mem_nil _⟩

theorem isDocument_twice : IsDocument "\x7b\"version\":1,\"version\":1\x7d"
    (.object [versionMember.entry, versionMember.entry]) := by
  let twice := [versionMember, versionMember]
  refine ⟨⟨[], '\x7b' :: commas (twice.map Member.chars) ++ ['\x7d'], _, []⟩, ?_, by decide, rfl⟩
  refine @Spelling.object twice (List.cons_ne_nil _ _) ?_
  simp only [twice, List.forall_mem_cons]
  exact ⟨.number oneNumeral, .number oneNumeral, List.forall_mem_nil _⟩

theorem writes_lonePackage : lonePackage.Writes packageItem.value := by
  refine ⟨_, rfl, [(some "name", .text "a"), (some "version", .text "1"), (some "id", .text "a 1")],
    [(some "x", .number unknownNumber.number)], ?_, ?_, (List.reverse_perm (packageMembers.map Member.entry)).symm⟩
  · exact .given rfl (.given rfl (.given rfl (.missing rfl (.missing rfl (.missing rfl (.missing rfl .nil))))))
  · simp [lonePackage, Package.slots, Slot.required, Slot.optional, Slot.defaulted]

theorem parse?_tolerant_reordered :
    parse? ("\x7b\"packages\":[ " ++
      "\x7b\"x\":-1.5e-3,\"id\":\"a 1\",\"version\":\"1\",\"name\":\"\\u0061\"\x7d\n],\"version\":1\x7d") =
        some ⟨some 1, [lonePackage], none, none, none⟩ ∧
    parse? "\x7b\"version\":1,\"version\":1\x7d" = none ∧
    ∃ text, parse? text = some ⟨some (2 ^ 64 - 1), [lonePackage], none, none, none⟩ := by
  refine ⟨(parse?_tolerant.2 _ _ isDocument_reordered).1 _ ?_, (parse?_tolerant.2 _ _ isDocument_twice).2 ?_, ?_⟩
  · refine ⟨_, rfl, [(some "version", .nat 1), (some "packages", .array [packageItem.value])], [], ?_,
      List.forall_mem_nil _, (List.reverse_perm (documentMembers.map Member.entry)).symm⟩
    exact .given ⟨rfl, by decide⟩ (.given ⟨_, rfl, .cons writes_lonePackage .nil⟩
      (.missing rfl (.missing rfl (.missing rfl .nil))))
  · exact ⟨.document, _, .root, "version", by decide, _, _, List.Sublist.refl _⟩
  · obtain ⟨text, v, htext, hv⟩ := parse?_tolerant.1 ⟨some (2 ^ 64 - 1), [lonePackage], none, none, none⟩
      fun n hn => by
        cases hn
        decide
    exact ⟨text, (parse?_tolerant.2 text v htext).1 _ hv⟩

end

end Metadata

end CrateYard
