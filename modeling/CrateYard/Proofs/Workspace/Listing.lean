import CrateYard.Proofs.FileTree.Named
import CrateYard.Proofs.Workspace.Graph
import CrateYard.Workspace.Load
import Mathlib.Data.List.Forall2

/-! The packages of a document. Each listed package is kept or reported: it is kept if it is the first with its id and
its directory is there, and then each of its targets is kept or reported in turn. -/

namespace CrateYard

namespace Metadata

/-- The directory of a listed package: that of its manifest, if it is there. -/
def Package.directory? (t : FileTree) (raw : Package) : Option Path :=
  (⟨raw.manifestPath⟩ : Path).parent?.bind t.directoryAt?

/-- The source file of a target of a package at `root`, by the best reading of its path that names a file. -/
def Target.file? (t : FileTree) (root : Path) (raw : Target) : Option Path :=
  (Workspace.readings root ⟨raw.srcPath⟩).findSome? t.fileAt?

end Metadata

namespace Omission

def isPackage : Omission → Bool
  | .package .. => true
  | _ => false

def isTarget : Omission → Bool
  | .target .. => true
  | _ => false

def isDependency : Omission → Bool
  | .dependency .. => true
  | _ => false

variable {o : Omission}

theorem isPackage_of_isDependency (h : o.isDependency = true) : o.isPackage = false := by
  cases o with
  | dependency => rfl
  | _ => cases h

theorem isTarget_of_isDependency (h : o.isDependency = true) : o.isTarget = false := by
  cases o with
  | dependency => rfl
  | _ => cases h

end Omission

namespace Workspace

variable {t : FileTree} {members seen : List String} {before raws : List Metadata.Package} {raw : Metadata.Package}
  {root : Path} {cause : OmissionCause}

/-- A text names an edition; no text, and one that names none, stand for the oldest. -/
def NamesEdition (text : Option String) (e : Edition) : Prop :=
  text = some e.text ∨ e = .e2015 ∧ ∀ known : Edition, text ≠ some known.text

/-- `target` is what is kept of a listed target, in a package of this edition at `root`. -/
structure TargetOf (t : FileTree) (root : Path) (edition : Edition) (raw : Metadata.Target) (target : Target) :
    Prop where
  file : raw.file? t root = some target.crateRoot
  name : target.name = raw.name
  kind : target.kind = .ofNames raw.kind raw.crateTypes
  own : ∀ text, raw.edition = some text → NamesEdition (some text) target.edition
  inherited : raw.edition = none → target.edition = edition
  doctest : target.doctest = raw.doctest.getD true

structure PackageOf (t : FileTree) (members : List String) (raw : Metadata.Package) (p : Package) : Prop where
  root : raw.directory? t = some p.root
  id : p.id = ⟨raw.id⟩
  name : p.name = raw.name
  version : p.version = raw.version
  source : p.source = .ofDocument raw.source
  edition : NamesEdition raw.edition p.edition
  origin : p.origin = .workspace ↔ raw.id ∈ members
  targets : List.Forall₂ (TargetOf t p.root p.edition)
    (raw.targets.filter fun target => (target.file? t p.root).isSome) p.targets

/-- The omission of a listed package: its id was listed before, or its directory is not there. -/
inductive Reports (t : FileTree) : List Metadata.Package × Metadata.Package → Omission → Prop where
  | repeated {before : List Metadata.Package} {raw : Metadata.Package} (h : raw.id ∈ before.map (·.id)) :
    Reports t (before, raw) (.package ⟨raw.id⟩ .repeatedId)
  | missing {before : List Metadata.Package} {raw : Metadata.Package} {cause : OmissionCause}
    (h : raw.id ∉ before.map (·.id)) (hc : rootOf t raw.manifestPath = .error cause) :
    Reports t (before, raw) (.package ⟨raw.id⟩ cause)

def isKept (t : FileTree) (item : List Metadata.Package × Metadata.Package) : Bool :=
  isFirst (·.id) item && (item.2.directory? t).isSome

/-- The listed packages that are kept, given those before. -/
def keptAfter (t : FileTree) (before raws : List Metadata.Package) : List Metadata.Package :=
  ((placed before raws).filter (isKept t)).map Prod.snd

/-- The listed packages that are left out, given those before; each with those before it. -/
def leftAfter (t : FileTree) (before raws : List Metadata.Package) : List (List Metadata.Package × Metadata.Package) :=
  (placed before raws).filter fun item => !isKept t item

/-- The omissions of the targets of a listed package whose source file is not there. -/
def lostTargets (t : FileTree) (raw : Metadata.Package) : List Omission :=
  (raw.directory? t).toList.flatMap fun root =>
    (raw.targets.filter fun target => (target.file? t root).isNone).map fun target =>
      .target ⟨raw.id⟩ target.name (.sourceMissing target.srcPath)

/-- The packages and the omissions account for all listed packages, given those before. -/
structure Accounts (t : FileTree) (members : List String) (before raws : List Metadata.Package)
    (packages : List Package) (omitted : List Omission) : Prop where
  kept : List.Forall₂ (PackageOf t members) (keptAfter t before raws) packages
  left : List.Forall₂ (Reports t) (leftAfter t before raws) (omitted.filter Omission.isPackage)
  targets : omitted.filter Omission.isTarget = (keptAfter t before raws).flatMap (lostTargets t)

/-! One package. -/

theorem directory?_eq (t : FileTree) (raw : Metadata.Package) :
    raw.directory? t = (rootOf t raw.manifestPath).toOption := by
  unfold Metadata.Package.directory? rootOf
  cases hp : (⟨raw.manifestPath⟩ : Path).parent? with
  | none => rfl
  | some dir =>
    rw [Option.bind_some, FileTree.directoryAt?, Option.filter_some]
    cases he : dir.isEmpty with
    | true => simp [FileTree.canonical_of_isEmpty he, Except.toOption]
    | false =>
      cases hc : t.canonical dir with
      | error e => simp [hc, Except.toOption]
      | ok root => by_cases hd : t.isDirectory root <;> simp [hc, hd, Except.toOption, Option.filter_some]

theorem directory?_eq_some_iff : raw.directory? t = some root ↔ rootOf t raw.manifestPath = .ok root := by
  rw [directory?_eq]
  cases rootOf t raw.manifestPath <;> simp [Except.toOption]

theorem sourceFile?_eq (t : FileTree) (root : Path) (raw : Metadata.Target) :
    sourceFile? t root ⟨raw.srcPath⟩ = raw.file? t root := by
  unfold sourceFile? Metadata.Target.file?
  induction readings root ⟨raw.srcPath⟩ with
  | nil => rfl
  | cons p rest ih =>
    rw [List.filterMap_cons, List.findSome?_cons, FileTree.fileAt?]
    cases (t.canonical p).toOption with
    | none => exact ih
    | some file =>
      rw [List.find?_cons, Option.filter]
      cases t.isFile file with
      | true => rfl
      | false => exact ih

theorem namesEdition_ofDocument (text : Option String) : NamesEdition text (.ofDocument text) := by
  cases text with
  | none => exact .inr ⟨rfl, fun known => by simp⟩
  | some text =>
    cases he : Edition.ofText? text with
    | some e =>
      have hd : Edition.ofDocument (some text) = e := by simp [Edition.ofDocument, he]
      rw [hd]
      exact .inl (congrArg some (Edition.ofText?_eq_some he))
    | none =>
      have hd : Edition.ofDocument (some text) = .e2015 := by simp [Edition.ofDocument, he, Edition.oldest]
      refine .inr ⟨hd, fun known hk => ?_⟩
      rw [Option.some_inj.1 hk, Edition.ofText?_text] at he
      cases he

theorem isSome_loadTarget? (t : FileTree) (root : Path) (edition : Edition) (raw : Metadata.Target) :
    (loadTarget? t root edition raw).isSome = (raw.file? t root).isSome := by
  rw [loadTarget?, sourceFile?_eq, Option.isSome_map]

theorem targetOf_of_loadTarget? {edition : Edition} {raw : Metadata.Target} {target : Target}
    (h : loadTarget? t root edition raw = some target) : TargetOf t root edition raw target := by
  rw [loadTarget?, sourceFile?_eq] at h
  obtain ⟨file, hfile, rfl⟩ := Option.map_eq_some_iff.1 h
  refine ⟨hfile, rfl, rfl, fun text ht => ?_, fun hn => ?_, rfl⟩
  · rw [ht]
    exact namesEdition_ofDocument (some text)
  · rw [hn]

theorem targets_forall₂ (t : FileTree) (root : Path) (edition : Edition) (raws : List Metadata.Target) :
    List.Forall₂ (TargetOf t root edition) (raws.filter fun target => (target.file? t root).isSome)
      (raws.filterMap (loadTarget? t root edition)) := by
  induction raws with
  | nil => exact .nil
  | cons raw rest ih =>
    rw [List.filter_cons, List.filterMap_cons, ← isSome_loadTarget? t root edition raw]
    cases h : loadTarget? t root edition raw with
    | none => exact ih
    | some target => exact .cons (targetOf_of_loadTarget? h) ih

theorem loadPackage_of_directory (members : List String) (h : raw.directory? t = some root) :
    ∃ p, loadPackage t members raw = (some p, lostTargets t raw) ∧ PackageOf t members raw p := by
  have hroot := directory?_eq_some_iff.1 h
  rw [loadPackage, hroot]
  refine ⟨_, Prod.ext rfl ?_, ?_⟩
  · rw [lostTargets, h, Option.toList_some, List.flatMap_singleton]
    have hnone : ∀ target : Metadata.Target,
        (loadTarget? t root (.ofDocument raw.edition) target).isNone = (target.file? t root).isNone := fun target => by
      rw [← Option.not_isSome, ← Option.not_isSome, isSome_loadTarget?]
    simp only [hnone]
    rfl
  · refine ⟨h, rfl, rfl, rfl, rfl, namesEdition_ofDocument raw.edition, ?_, targets_forall₂ _ _ _ _⟩
    by_cases hm : raw.id ∈ members <;> simp [hm]

theorem loadPackage_of_missing (members : List String) (h : rootOf t raw.manifestPath = .error cause) :
    loadPackage t members raw = (none, [.package ⟨raw.id⟩ cause]) := by
  rw [loadPackage, h]

/-! All packages. -/

theorem filter_lostTargets (t : FileTree) (raw : Metadata.Package) :
    (lostTargets t raw).filter Omission.isPackage = [] ∧
      (lostTargets t raw).filter Omission.isTarget = lostTargets t raw ∧
      (lostTargets t raw).filter Omission.isDependency = [] := by
  have htarget : ∀ o ∈ lostTargets t raw, ∃ owner name cause, o = .target owner name cause := by
    intro o ho
    simp only [lostTargets, List.mem_flatMap, List.mem_map] at ho
    obtain ⟨root, -, target, -, rfl⟩ := ho
    exact ⟨_, _, _, rfl⟩
  refine ⟨List.filter_eq_nil_iff.2 fun o ho => ?_, List.filter_eq_self.2 fun o ho => ?_,
    List.filter_eq_nil_iff.2 fun o ho => ?_⟩
  all_goals
    obtain ⟨owner, name, cause, rfl⟩ := htarget o ho
    simp [Omission.isPackage, Omission.isTarget, Omission.isDependency]

namespace Accounts

variable {packages : List Package} {omitted : List Omission}

theorem leave (h : Accounts t members (raw :: before) raws packages omitted)
    (hr : Reports t (before, raw) (.package ⟨raw.id⟩ cause)) (hk : isKept t (before, raw) = false) :
    Accounts t members before (raw :: raws) packages (.package ⟨raw.id⟩ cause :: omitted) := by
  have hkept : keptAfter t before (raw :: raws) = keptAfter t (raw :: before) raws := by
    simp [keptAfter, placed, hk]
  have hleft : leftAfter t before (raw :: raws) = (before, raw) :: leftAfter t (raw :: before) raws := by
    simp [leftAfter, placed, hk]
  refine ⟨?_, ?_, ?_⟩
  · rw [hkept]
    exact h.kept
  · rw [hleft]
    exact .cons hr h.left
  · rw [hkept]
    exact h.targets

theorem keep (h : Accounts t members (raw :: before) raws packages omitted) {p : Package}
    (hp : PackageOf t members raw p) (hk : isKept t (before, raw) = true) :
    Accounts t members before (raw :: raws) (p :: packages) (lostTargets t raw ++ omitted) := by
  have hkept : keptAfter t before (raw :: raws) = raw :: keptAfter t (raw :: before) raws := by
    simp [keptAfter, placed, hk]
  have hleft : leftAfter t before (raw :: raws) = leftAfter t (raw :: before) raws := by
    simp [leftAfter, placed, hk]
  obtain ⟨hnone, hall, -⟩ := filter_lostTargets t raw
  refine ⟨?_, ?_, ?_⟩
  · rw [hkept]
    exact .cons hp h.kept
  · rw [hleft, List.filter_append, hnone]
    exact h.left
  · rw [hkept, List.filter_append, hall, List.flatMap_cons, h.targets]

end Accounts

theorem accounts_loadPackages (h : Records (·.id) seen before) :
    Accounts t members before raws (loadPackages t members seen raws).1 (loadPackages t members seen raws).2 := by
  induction raws generalizing seen before with
  | nil => exact ⟨.nil, .nil, rfl⟩
  | cons raw rest ih =>
    rw [loadPackages]
    by_cases hs : raw.id ∈ seen
    · rw [if_pos (by simpa using hs)]
      refine (ih (h.skip hs)).leave (.repeated ((h _).1 hs)) ?_
      simp [isKept, h.isFirst_eq, hs]
    · rw [if_neg (by simpa using hs)]
      have hbefore : raw.id ∉ before.map (·.id) := fun hb => hs ((h _).2 hb)
      cases hroot : rootOf t raw.manifestPath with
      | error cause =>
        rw [loadPackage_of_missing members hroot]
        refine (ih (h.cons raw)).leave (.missing hbefore hroot) ?_
        simp [isKept, directory?_eq, hroot, Except.toOption]
      | ok root =>
        obtain ⟨p, hload, hp⟩ := loadPackage_of_directory members (directory?_eq_some_iff.2 hroot)
        rw [hload]
        refine (ih (h.cons raw)).keep hp ?_
        simp [isKept, h.isFirst_eq, hs, directory?_eq, hroot, Except.toOption]

theorem filter_isDependency_loadPackages :
    (loadPackages t members seen raws).2.filter Omission.isDependency = [] := by
  induction raws generalizing seen with
  | nil => rfl
  | cons raw rest ih =>
    rw [loadPackages]
    by_cases hs : raw.id ∈ seen
    · rw [if_pos (by simpa using hs), List.filter_cons_of_neg (by simp [Omission.isDependency]), ih]
    · rw [if_neg (by simpa using hs), List.filter_append, ih, List.append_nil]
      cases hroot : rootOf t raw.manifestPath with
      | error cause =>
        rw [loadPackage_of_missing members hroot]
        rfl
      | ok root =>
        obtain ⟨p, hload, -⟩ := loadPackage_of_directory members (directory?_eq_some_iff.2 hroot)
        rw [hload]
        exact (filter_lostTargets t raw).2.2

/-- What is kept is the first with its id. -/
theorem keptAfter_sublist_firsts : (keptAfter t [] raws).Sublist (firsts (·.id) raws) := by
  have hfilter : (placed [] raws).filter (isKept t) =
      ((placed [] raws).filter (isFirst (·.id))).filter fun item => (item.2.directory? t).isSome := by
    rw [List.filter_filter]
    exact List.filter_congr fun item _ => Bool.and_comm _ _
  rw [keptAfter, firsts, hfilter]
  exact List.filter_sublist.map Prod.snd

theorem forall₂_ids {packages : List Package} (h : List.Forall₂ (PackageOf t members) raws packages) :
    packages.map (·.id) = (raws.map (·.id)).map PackageId.mk := by
  induction h with
  | nil => rfl
  | cons hp _ ih => rw [List.map_cons, hp.id, ih, List.map_cons, List.map_cons]

theorem Accounts.nodup_ids {packages : List Package} {omitted : List Omission}
    (h : Accounts t members [] raws packages omitted) : (packages.map (·.id)).Nodup := by
  have hfirsts : ((firsts (·.id) raws).map (·.id)).Nodup := by
    rw [firsts_eq_firstsBy]
    exact nodup_keys_firstsBy
  rw [forall₂_ids h.kept]
  exact (hfirsts.sublist (keptAfter_sublist_firsts.map _)).map fun a b hab => PackageId.mk.inj hab

/-! A document. -/

variable {doc : Metadata} {fallback : Path} {w : Workspace}

def packagesOf (t : FileTree) (doc : Metadata) : List Package :=
  (loadPackages t (doc.members.getD []) [] doc.packages).1

def lossesOf (t : FileTree) (doc : Metadata) : List Omission :=
  (loadPackages t (doc.members.getD []) [] doc.packages).2

/-- The nodes of a document, of which it may have none. -/
def nodesOf (doc : Metadata) : List Metadata.Node :=
  doc.resolve.getD []

theorem accounts_packagesOf (t : FileTree) (doc : Metadata) :
    Accounts t (doc.members.getD []) [] doc.packages (packagesOf t doc) (lossesOf t doc) :=
  accounts_loadPackages .nil

theorem of_load (h : load t doc fallback = .ok w) :
    (∃ root, w.graph = .ofPackages root (packagesOf t doc) (edgesOf (packagesOf t doc) (nodesOf doc))) ∧
    w.omitted = lossesOf t doc ++
      (knownNodes (packagesOf t doc) (nodesOf doc)).flatMap (edgeOmissions (packagesOf t doc)) := by
  unfold packagesOf lossesOf
  rw [load] at h
  split at h
  · split at h
    · cases h
    · next members hm =>
      rw [hm]
      cases h
      exact ⟨⟨_, rfl⟩, rfl⟩
  · cases h

theorem nodes_of_load (h : load t doc fallback = .ok w) :
    w.graph.nodes = (packagesOf t doc).map fun p =>
      ⟨p, Graph.keepEdges ((packagesOf t doc).map (·.id)) (edgesOf (packagesOf t doc) (nodesOf doc) p.id)⟩ := by
  obtain ⟨⟨root, hg⟩, -⟩ := of_load h
  rw [hg, Graph.nodes_ofPackages_of_nodup (accounts_packagesOf t doc).nodup_ids]

theorem packages_of_load (h : load t doc fallback = .ok w) : w.graph.packages = packagesOf t doc := by
  rw [Graph.packages, nodes_of_load h, List.map_map]
  exact List.map_id _

theorem isDependency_of_mem_edgeOmissions {packages : List Package} {nodes : List Metadata.Node} {o : Omission}
    (h : o ∈ nodes.flatMap (edgeOmissions packages)) : o.isDependency = true := by
  simp only [List.mem_flatMap, edgeOmissions, List.mem_map] at h
  obtain ⟨n, -, e, -, rfl⟩ := h
  rfl

/-- Every document of the known version that has a list of members is accepted, and its packages are accounted for:
those that are kept, in order, each with its targets, and the omissions of the others and of the targets that are
lost. -/
theorem load_accounts {members : List String} (hv : doc.version = some 1) (hm : doc.members = some members)
    (t : FileTree) (fallback : Path) :
    ∃ w, load t doc fallback = .ok w ∧ Accounts t members [] doc.packages w.graph.packages w.omitted := by
  obtain ⟨w, hw⟩ : ∃ w, load t doc fallback = .ok w := by
    rw [load, DocumentError.supportedVersion, if_pos hv, hm]
    exact ⟨_, rfl⟩
  have h := accounts_packagesOf t doc
  rw [hm, Option.getD_some] at h
  -- the omissions of edges are no omissions of packages or targets
  have hedges : ∀ {keep : Omission → Bool}, (∀ o, o.isDependency = true → keep o = false) →
      w.omitted.filter keep = (lossesOf t doc).filter keep := by
    intro keep hkeep
    have hnone : ((knownNodes (packagesOf t doc) (nodesOf doc)).flatMap
        (edgeOmissions (packagesOf t doc))).filter keep = [] :=
      List.filter_eq_nil_iff.2 fun o ho => by simp [hkeep o (isDependency_of_mem_edgeOmissions ho)]
    rw [(of_load hw).2, List.filter_append, hnone, List.append_nil]
  refine ⟨w, hw, ?_⟩
  rw [packages_of_load hw]
  refine ⟨h.kept, ?_, ?_⟩
  · rw [hedges fun o ho => o.isPackage_of_isDependency ho]
    exact h.left
  · rw [hedges fun o ho => o.isTarget_of_isDependency ho]
    exact h.targets

/-! A package at the root with a target that is there and one that is not, a package without a directory, and both
ids a second time. -/

def oneFile : FileTree :=
  ⟨[(["main.rs"], .file [])], []⟩

theorem fileAt?_oneFile : oneFile.fileAt? ⟨"/main.rs"⟩ = some ⟨"/main.rs"⟩ := by
  have hwalk : ∀ fits : Location → Bool, fits ["main.rs"] = true →
      oneFile.walk fits FileTree.linkLimit [] (⟨"/main.rs"⟩ : Path).segments = .ok ["main.rs"] := fun fits hfits => by
    have hsize : "main.rs".utf8ByteSize ≤ 255 := by decide
    rw [show (⟨"/main.rs"⟩ : Path).segments = ["", "main.rs"] by decide]
    simp [FileTree.walk, FileTree.isName, FileTree.entry?, FileTree.at?, FileTree.nameLimit, oneFile, hfits, hsize]
  obtain ⟨hcanonical, hfind⟩ := FileTree.canonical_and_find (e := .file []) (by decide)
    (hwalk FileTree.canAsk (by decide)) (hwalk (fun _ => true) rfl) rfl
  have hpath : Location.toPath ["main.rs"] = ⟨"/main.rs"⟩ := by decide
  have hfile : oneFile.isFile ⟨"/main.rs"⟩ = true := by rw [FileTree.isFile, hfind]
  rw [FileTree.fileAt?, hcanonical, hpath, Except.toOption, Option.filter_some, if_pos hfile]

def atRoot : Metadata.Package where
  name := "app"
  version := "0.1.0"
  id := "app 0.1.0"
  source := none
  manifestPath := "/Cargo.toml"
  targets := [⟨["bin"], "app", "/main.rs", ["bin"], none, none⟩, ⟨["test"], "it", "", [], none, none⟩]
  edition := some "1999"

def nowhere : Metadata.Package where
  name := "lib"
  version := "1.0.0"
  id := "lib 1.0.0"
  source := none
  manifestPath := "Cargo.toml"
  targets := []
  edition := none

def listedTwice : Metadata where
  version := some 1
  packages := [atRoot, nowhere, atRoot, { nowhere with manifestPath := "/Cargo.toml" }]
  members := some ["app 0.1.0"]
  resolve := none
  workspaceRoot := none

theorem directory?_root (t : FileTree) (h : raw.manifestPath = "/Cargo.toml") : raw.directory? t = some ⟨"/"⟩ := by
  rw [Metadata.Package.directory?, h, show (⟨"/Cargo.toml"⟩ : Path).parent? = some ⟨"/"⟩ by decide]
  exact t.directoryAt?_root

theorem directory?_nowhere (t : FileTree) : nowhere.directory? t = none := by
  rw [Metadata.Package.directory?, show (⟨nowhere.manifestPath⟩ : Path).parent? = some ⟨""⟩ by decide,
    Option.bind_some, FileTree.directoryAt?, FileTree.canonical_of_isEmpty rfl]
  rfl

theorem load_accounts_listedTwice :
    listedTwice.version = some 1 ∧ listedTwice.members = some ["app 0.1.0"] ∧
    ∃ w p target, load oneFile listedTwice ⟨"/"⟩ = .ok w ∧ w.graph.packages = [p] ∧ p.id = ⟨"app 0.1.0"⟩ ∧
      p.origin = .workspace ∧ p.edition = .e2015 ∧ p.targets = [target] ∧ target.crateRoot = ⟨"/main.rs"⟩ ∧
      (w.omitted.filter Omission.isPackage).length = 3 ∧
      w.omitted.filter Omission.isTarget = [.target ⟨"app 0.1.0"⟩ "it" (.sourceMissing "")] := by
  have hversion : listedTwice.version = some 1 := rfl
  have hmembers : listedTwice.members = some ["app 0.1.0"] := rfl
  obtain ⟨w, hw, h⟩ := load_accounts hversion hmembers oneFile ⟨"/"⟩
  have hfirst : isKept oneFile ([], atRoot) = true := by rw [isKept, directory?_root _ rfl]; rfl
  have hgone : isKept oneFile ([atRoot], nowhere) = false := by rw [isKept, directory?_nowhere]; rfl
  have hagain : isKept oneFile ([nowhere, atRoot], atRoot) = false := rfl
  have hlast : isKept oneFile ([atRoot, nowhere, atRoot], { nowhere with manifestPath := "/Cargo.toml" }) = false := rfl
  have hkept : keptAfter oneFile [] listedTwice.packages = [atRoot] := by
    simp [keptAfter, listedTwice, placed, hfirst, hgone, hagain, hlast]
  have hleft : (leftAfter oneFile [] listedTwice.packages).length = 3 := by
    simp [leftAfter, listedTwice, placed, hfirst, hgone, hagain, hlast]
  obtain ⟨hpackages, hreports, htargets⟩ := h
  rw [hkept] at hpackages htargets
  have hmain : ∀ root, (⟨["bin"], "app", "/main.rs", ["bin"], none, none⟩ : Metadata.Target).file? oneFile root =
      some ⟨"/main.rs"⟩ := fun root => by
    rw [Metadata.Target.file?, readings, if_neg (by decide), if_pos (by decide), List.findSome?_cons,
      fileAt?_oneFile]
  have hlost : ∀ root, (⟨["test"], "it", "", [], none, none⟩ : Metadata.Target).file? oneFile root = none :=
    fun _ => rfl
  obtain ⟨p, rest, hp, hrest, hpackages⟩ := List.forall₂_cons_left_iff.1 hpackages
  cases List.forall₂_nil_left_iff.1 hrest
  have hptargets := hp.targets
  simp only [atRoot, List.filter_cons, hmain, hlost, Option.isSome_some, Option.isSome_none, if_true,
    Bool.false_eq_true, if_false, List.filter_nil] at hptargets
  obtain ⟨target, rest', htarget, hrest', hptargets⟩ := List.forall₂_cons_left_iff.1 hptargets
  cases List.forall₂_nil_left_iff.1 hrest'
  refine ⟨hversion, hmembers, w, p, target, hw, hpackages, hp.id, hp.origin.2 (by decide), ?_, hptargets, ?_,
    hreports.length_eq.symm.trans hleft, ?_⟩
  · rcases hp.edition with he | ⟨he, -⟩
    · exact absurd he (by cases p.edition <;> decide)
    · exact he
  · exact Option.some_inj.1 (htarget.file.symm.trans (hmain p.root))
  · rw [htargets, List.flatMap_singleton, lostTargets, directory?_root _ rfl]
    simp [atRoot, hmain, hlost]

end Workspace

end CrateYard
