import CrateYard.Proofs.FileTree.Canonical
import CrateYard.Proofs.Workspace.Listing

/-! Where packages and targets lie. The root of each package that is kept, and the source file of each target, is a
canonical path, so that the path of a file can be compared with it. The source file is the one that the document spells:
by its path as it stands, if that is absolute and names a file, and otherwise by its path below the package. -/

namespace CrateYard

namespace Metadata.Target

variable {t : FileTree} {root file : Path} {raw : Target}

def source (raw : Target) : Path :=
  ⟨raw.srcPath⟩

/-- The source path as it is read below a package: an absolute one is read again as relative. -/
def sourceBelow (root : Path) (raw : Target) : Path :=
  root.join (if raw.source.isAbsolute then raw.source.relative else raw.source)

/-- The source path is absolute and names a file. -/
def namesItself (t : FileTree) (raw : Target) : Bool :=
  raw.source.isAbsolute && (t.fileAt? raw.source).isSome

/-- One of the readings of the source path names a file. -/
def hasSource (t : FileTree) (root : Path) (raw : Target) : Bool :=
  raw.srcPath ≠ "" && (raw.namesItself t || (t.fileAt? (raw.sourceBelow root)).isSome)

/-- `file` is the source file of a target of a package at `root`. -/
structure SourceAt (t : FileTree) (root : Path) (raw : Target) (file : Path) : Prop where
  absolute : file.isAbsolute = true
  canonical : t.canonical file = .ok file
  isFile : t.isFile file = true
  itself : raw.namesItself t = true → t.canonical raw.source = .ok file
  below : raw.namesItself t = false → t.canonical (raw.sourceBelow root) = .ok file

theorem file?_eq (t : FileTree) (root : Path) (raw : Target) :
    raw.file? t root = if raw.srcPath = "" then none
      else if raw.namesItself t then t.fileAt? raw.source else t.fileAt? (raw.sourceBelow root) := by
  have hempty : raw.source.isEmpty = true ↔ raw.srcPath = "" := by rw [Path.isEmpty, String.isEmpty_iff]; rfl
  change (Workspace.readings root raw.source).findSome? t.fileAt? = _
  unfold Workspace.readings
  by_cases he : raw.srcPath = ""
  · rw [if_pos (hempty.2 he), if_pos he]
    rfl
  · rw [if_neg (mt hempty.1 he), if_neg he, namesItself, sourceBelow]
    cases raw.source.isAbsolute with
    | false => simp only [Bool.false_and, Bool.false_eq_true, if_false, List.findSome?_singleton]
    | true =>
      simp only [Bool.true_and, if_true]
      rw [List.findSome?_cons]
      cases t.fileAt? raw.source with
      | none => simp only [List.findSome?_singleton, Option.isSome_none, Bool.false_eq_true, if_false]
      | some file => rfl

theorem isSome_file? (t : FileTree) (root : Path) (raw : Target) :
    (raw.file? t root).isSome = raw.hasSource t root := by
  rw [file?_eq, hasSource, namesItself]
  by_cases he : raw.srcPath = ""
  · simp [he]
  · cases raw.source.isAbsolute <;> cases hfile : t.fileAt? raw.source <;> simp [he]

theorem sourceAt_of_file? (ht : t.IsTree) (h : raw.file? t root = some file) : raw.SourceAt t root file := by
  rw [file?_eq] at h
  obtain ⟨-, h⟩ := Option.ite_none_left_eq_some.1 h
  have hnamed : ∀ {reading : Path}, t.fileAt? reading = some file →
      t.canonical reading = .ok file ∧ t.isFile file = true := FileTree.fileAt?_eq_some_iff.1
  cases hitself : raw.namesItself t with
  | true =>
    rw [hitself, if_pos rfl] at h
    obtain ⟨hcanonical, hfile⟩ := hnamed h
    obtain ⟨habsolute, hself, -⟩ := FileTree.of_canonical ht hcanonical
    exact ⟨habsolute, hself, hfile, fun _ => hcanonical, by simp [hitself]⟩
  | false =>
    rw [hitself, if_neg Bool.false_ne_true] at h
    obtain ⟨hcanonical, hfile⟩ := hnamed h
    obtain ⟨habsolute, hself, -⟩ := FileTree.of_canonical ht hcanonical
    exact ⟨habsolute, hself, hfile, by simp [hitself], fun _ => hcanonical⟩

end Metadata.Target

namespace Workspace

variable {t : FileTree} {doc : Metadata} {fallback : Path} {w : Workspace}

/-- `p` is the package of a listed one, in its place. -/
structure PackageAt (t : FileTree) (raw : Metadata.Package) (p : Package) : Prop where
  id : p.id = ⟨raw.id⟩
  root : raw.directory? t = some p.root
  absolute : p.root.isAbsolute = true
  canonical : t.canonical p.root = .ok p.root
  isDirectory : t.isDirectory p.root = true
  targets : List.Forall₂ (fun listed target => target.name = listed.name ∧ listed.SourceAt t p.root target.crateRoot)
    (raw.targets.filter (Metadata.Target.hasSource t p.root)) p.targets

theorem packageAt_of_packageOf {members : List String} {raw : Metadata.Package} {p : Package} (ht : t.IsTree)
    (h : PackageOf t members raw p) : PackageAt t raw p := by
  have hroot : (⟨raw.manifestPath⟩ : Path).parent?.bind t.directoryAt? = some p.root := h.root
  obtain ⟨dir, -, hdir⟩ := Option.bind_eq_some_iff.1 hroot
  obtain ⟨hcanonical, hdirectory⟩ := FileTree.directoryAt?_eq_some_iff.1 hdir
  obtain ⟨habsolute, hself, -⟩ := FileTree.of_canonical ht hcanonical
  have htargets := h.targets
  simp only [Metadata.Target.isSome_file?] at htargets
  refine ⟨h.id, h.root, habsolute, hself, hdirectory, htargets.imp fun listed target htarget => ?_⟩
  exact ⟨htarget.name, Metadata.Target.sourceAt_of_file? ht htarget.file⟩

theorem target_mem_omitted_iff (h : load t doc fallback = .ok w) {owner : PackageId} {name : String}
    {cause : OmissionCause} :
    .target owner name cause ∈ w.omitted ↔
      .target owner name cause ∈ (keptAfter t [] doc.packages).flatMap (lostTargets t) := by
  rw [← (accounts_packagesOf t doc).targets, (of_load h).2, List.mem_append, List.mem_filter]
  constructor
  · rintro (hloss | hedge)
    · exact ⟨hloss, rfl⟩
    · cases isDependency_of_mem_edgeOmissions hedge
  · exact fun hloss => .inl hloss.1

/-- All packages and targets that are kept have canonical places, each where its document says. A target is left out
only if its path is empty or no reading of it names a file. -/
theorem load_places (ht : t.IsTree) (h : load t doc fallback = .ok w) :
    List.Forall₂ (PackageAt t) (keptAfter t [] doc.packages) w.graph.packages ∧
    ∀ owner name cause, .target owner name cause ∈ w.omitted →
      ∃ raw ∈ keptAfter t [] doc.packages, ∃ root, raw.directory? t = some root ∧
        ∃ listed ∈ raw.targets, listed.hasSource t root = false ∧
          owner = ⟨raw.id⟩ ∧ name = listed.name ∧ cause = .sourceMissing listed.srcPath := by
  constructor
  · rw [packages_of_load h]
    exact (accounts_packagesOf t doc).kept.imp fun raw p hp => packageAt_of_packageOf ht hp
  · intro owner name cause ho
    obtain ⟨raw, hraw, hlost⟩ := List.mem_flatMap.1 ((target_mem_omitted_iff h).1 ho)
    simp only [lostTargets, List.mem_flatMap, List.mem_map, Option.mem_toList] at hlost
    obtain ⟨root, hroot, listed, hlisted, he⟩ := hlost
    obtain ⟨hmem, hnone⟩ := List.mem_filter.1 hlisted
    cases he
    refine ⟨raw, hraw, root, hroot, listed, hmem, ?_, rfl, rfl, rfl⟩
    rw [← Metadata.Target.isSome_file?, ← Option.not_isNone, hnone]
    rfl

/-! A package whose manifest is named through a link, with a target whose absolute path has to be read again as
relative. -/

def appTarget : Metadata.Target :=
  ⟨["bin"], "app", "/main.rs", ["bin"], none, none⟩

def app : Metadata.Package where
  name := "app"
  version := "0.1.0"
  id := "app 0.1.0"
  source := none
  manifestPath := "/ws/app/Cargo.toml"
  targets := [appTarget]
  edition := none

theorem directory?_app : app.directory? .linked = some ⟨"/lib"⟩ := by
  obtain ⟨-, hfind⟩ := FileTree.IsPlace.canonical_and_find (l := ["lib"]) FileTree.isTree_linked
    ⟨by decide, fun _ => nofun⟩ rfl
  have hdirectory : FileTree.linked.isDirectory ⟨"/lib"⟩ = true := by
    rw [show (⟨"/lib"⟩ : Path) = Location.toPath ["lib"] by decide, FileTree.isDirectory, hfind]
  rw [Metadata.Package.directory?, show (⟨app.manifestPath⟩ : Path).parent? = some ⟨"/ws/app"⟩ by decide]
  exact FileTree.directoryAt?_eq_some_iff.2 ⟨FileTree.app_linked.1, hdirectory⟩

theorem namesItself_appTarget : appTarget.namesItself .linked = false := by
  have hname : ¬255 < "main.rs".utf8ByteSize := by decide
  have hask : FileTree.canAsk ["main.rs"] = true := by decide
  have hsegments : (⟨"/main.rs"⟩ : Path).segments = ["", "main.rs"] := by decide
  have hresolve : FileTree.linked.resolve ⟨"/main.rs"⟩ = .error .notFound := by
    rw [(FileTree.linked.resolve_and_reach_of_isAbsolute (by decide)).1, hsegments]
    simp [FileTree.walk, FileTree.isName, FileTree.entry?, FileTree.at?, FileTree.nameLimit, FileTree.linked, hname,
      hask, List.lookup_cons]
  have hcanonical : FileTree.linked.canonical appTarget.source = .error .notFound := by
    rw [show appTarget.source = ⟨"/main.rs"⟩ from rfl, FileTree.canonical, hresolve]
    rfl
  rw [Metadata.Target.namesItself, FileTree.fileAt?, hcanonical]
  exact Bool.and_false _

theorem canonical_appTarget : FileTree.linked.canonical (appTarget.sourceBelow ⟨"/lib"⟩) = .ok ⟨"/lib/main.rs"⟩ ∧
    FileTree.linked.isFile ⟨"/lib/main.rs"⟩ = true := by
  obtain ⟨hcanonical, hfind⟩ := FileTree.IsPlace.canonical_and_find (l := ["lib", "main.rs"]) FileTree.isTree_linked
    ⟨by decide, fun _ => nofun⟩ rfl
  rw [show Location.toPath ["lib", "main.rs"] = ⟨"/lib/main.rs"⟩ by decide] at hcanonical hfind
  rw [show appTarget.sourceBelow ⟨"/lib"⟩ = ⟨"/lib/main.rs"⟩ by decide]
  exact ⟨hcanonical, FileTree.isFile_iff.2 ⟨[], hfind⟩⟩

def throughLink : Metadata where
  version := some 1
  packages := [app]
  members := some []
  resolve := none
  workspaceRoot := none

theorem load_places_throughLink : FileTree.linked.IsTree ∧
    ∃ w p target, load .linked throughLink ⟨"/"⟩ = .ok w ∧ w.graph.packages = [p] ∧ p.root = ⟨"/lib"⟩ ∧
      p.targets = [target] ∧ target.crateRoot = ⟨"/lib/main.rs"⟩ := by
  refine ⟨FileTree.isTree_linked, ?_⟩
  obtain ⟨w, hw⟩ : ∃ w, load .linked throughLink ⟨"/"⟩ = .ok w := ⟨_, rfl⟩
  obtain ⟨hpackages, -⟩ := load_places FileTree.isTree_linked hw
  have hkept : keptAfter .linked [] throughLink.packages = [app] := by
    have happ : isKept .linked ([], app) = true := by rw [isKept, directory?_app]; rfl
    simp [keptAfter, throughLink, placed, happ]
  rw [hkept] at hpackages
  obtain ⟨p, rest, hp, hrest, hpackages⟩ := List.forall₂_cons_left_iff.1 hpackages
  cases List.forall₂_nil_left_iff.1 hrest
  have hroot : p.root = ⟨"/lib"⟩ := Option.some_inj.1 (hp.root.symm.trans directory?_app)
  obtain ⟨hcanonical, hfile⟩ := canonical_appTarget
  have hsource : appTarget.hasSource .linked ⟨"/lib"⟩ = true := by
    have hbelow := FileTree.fileAt?_eq_some_iff.2 ⟨hcanonical, hfile⟩
    rw [Metadata.Target.hasSource, hbelow, Option.isSome_some, Bool.or_true]
    rfl
  have htargets := hp.targets
  rw [hroot, show app.targets = [appTarget] from rfl, List.filter_singleton, hsource, cond_true] at htargets
  obtain ⟨target, rest', htarget, hrest', htargets⟩ := List.forall₂_cons_left_iff.1 htargets
  cases List.forall₂_nil_left_iff.1 hrest'
  refine ⟨w, p, target, hw, hpackages, hroot, htargets, ?_⟩
  exact Except.ok.inj ((htarget.2.below namesItself_appTarget).symm.trans hcanonical)

end Workspace

end CrateYard
