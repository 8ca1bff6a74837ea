import CrateYard.Proofs.Workspace.Resolved
import CrateYard.Proofs.Workspace.Unreported

/-! The names of edges. An edge keeps the name that the document gives it, unless the library that it leads to has that
name. The library is looked for among the targets that are kept: where the first one that is declared has no source
file, the next one with a source file gives its name instead, or else the package. So the files decide about a name
exactly where the two names differ and the edge has one of them. -/

namespace CrateYard

namespace Metadata

def Target.declaresLibrary (target : Target) : Bool :=
  (TargetKind.ofNames target.kind target.crateTypes).isLib

namespace Package

variable {t : FileTree} {root : Path} {raw : Package}

/-- The name in code of the first library among some targets of a package, or else that of the package. -/
def libraryAmong (raw : Package) (targets : List Target) : String :=
  ((targets.find? Target.declaresLibrary).map fun target => crateName target.name).getD (crateName raw.name)

/-- The name of the library that a package declares. -/
def declaredName (raw : Package) : String :=
  raw.libraryAmong raw.targets

/-- The name of the library that is found of a package at `root`. -/
def foundName (t : FileTree) (root : Path) (raw : Package) : String :=
  raw.libraryAmong (raw.targets.filter (Target.hasSource t root))

/-- The first library that a package declares has its source file, if there is one. -/
def HasLibrary (t : FileTree) (root : Path) (raw : Package) : Prop :=
  ∀ target, raw.targets.find? Target.declaresLibrary = some target → target.hasSource t root = true

/-- What is declared is found where the source file is there. -/
theorem foundName_of_hasLibrary (h : raw.HasLibrary t root) : raw.foundName t root = raw.declaredName := by
  rw [foundName, declaredName, libraryAmong, libraryAmong, List.find?_filter]
  cases hfind : raw.targets.find? Target.declaresLibrary with
  | none =>
    have hnone := List.find?_eq_none.1 hfind
    rw [List.find?_eq_none.2 fun target ht => by simp [hnone target ht]]
  | some target =>
    obtain ⟨hlib, before, after, hsplit, hbefore⟩ := List.find?_eq_some_iff_append.1 hfind
    rw [List.find?_eq_some_iff_append.2 ⟨by simp [hlib, h target hfind], before, after, hsplit, fun other ho => ?_⟩]
    have hnot : other.declaresLibrary = false := by simpa using hbefore other ho
    simp [hnot]

end Package

end Metadata

namespace Graph

/-- The edge from one package to another. -/
def edge? (g : Graph) (source needed : PackageId) : Option Dependency :=
  ((g.edges? source).getD []).find? fun d => d.package = needed

end Graph

namespace Workspace

variable {t : FileTree} {doc : Metadata} {fallback : Path} {w : Workspace} {members : List String}
  {raw : Metadata.Package} {p : Package} {name : String}

theorem find?_isLib_of_forall₂ {root : Path} {edition : Edition} {listed : List Metadata.Target} {targets : List Target}
    (h : List.Forall₂ (TargetOf t root edition) listed targets) :
    (targets.find? fun target => target.kind.isLib).map Target.codeName =
      (listed.find? Metadata.Target.declaresLibrary).map fun target => crateName target.name := by
  induction h with
  | nil => rfl
  | @cons raw target rest targets htarget _ ih =>
    have hlib : target.kind.isLib = raw.declaresLibrary := by rw [htarget.kind, Metadata.Target.declaresLibrary]
    rw [List.find?_cons, List.find?_cons, hlib]
    cases raw.declaresLibrary with
    | true => simp [Target.codeName, htarget.name]
    | false => exact ih

theorem libraryName_of_packageOf (h : PackageOf t members raw p) : p.libraryName = raw.foundName t p.root := by
  have htargets := h.targets
  simp only [Metadata.Target.isSome_file?] at htargets
  have hfind := find?_isLib_of_forall₂ htargets
  rw [Metadata.Package.foundName, Metadata.Package.libraryAmong, ← hfind, ← h.name, Package.libraryName,
    Package.library?]
  cases p.targets.find? fun target => target.kind.isLib <;> rfl

theorem exists_packageOf {raws : List Metadata.Package} {packages : List Package}
    (h : List.Forall₂ (PackageOf t members) raws packages) (hraw : raw ∈ raws) :
    ∃ p ∈ packages, PackageOf t members raw p := by
  induction h with
  | nil => cases hraw
  | cons hp _ ih =>
    rcases List.mem_cons.1 hraw with rfl | hraw
    · exact ⟨_, List.mem_cons_self, hp⟩
    · obtain ⟨p, hmem, hp⟩ := ih hraw
      exact ⟨p, List.mem_cons_of_mem _ hmem, hp⟩

/-- Of the listed edges to a kept package the first is kept, without its name if that is the library's. -/
theorem find?_loadEdges {packages : List Package} {id lib : String} {given : Option String}
    (hlib : libraryNameOf? packages id = some lib) {seen : List String} (hseen : id ∉ seen)
    {listed : List (String × Option String)} (h : (listed.find? fun e => e.1 = id) = some (id, given)) :
    ((loadEdges packages seen listed).find? fun d => d.package = ⟨id⟩) =
      some ⟨⟨id⟩, given.filter (· ≠ lib)⟩ := by
  induction listed generalizing seen with
  | nil => cases h
  | cons e rest ih =>
    obtain ⟨needed, own⟩ := e
    rw [List.find?_cons] at h
    by_cases hid : needed = id
    · subst hid
      rw [decide_eq_true rfl] at h
      cases h
      rw [loadEdges, hlib]
      simp [hseen]
    · rw [decide_eq_false hid] at h
      rw [loadEdges]
      have hpackage : (⟨needed⟩ : PackageId) ≠ ⟨id⟩ := fun hp => hid (PackageId.mk.inj hp)
      have hmore : id ∉ needed :: seen := by simp [Ne.symm hid, hseen]
      cases libraryNameOf? packages needed with
      | none => exact ih hseen h
      | some other =>
        by_cases hagain : seen.contains needed = true
        · simpa only [hagain, if_true] using ih hseen h
        · simp only [hagain, Bool.false_eq_true, if_false, List.find?_cons, decide_eq_false hpackage]
          exact ih hmore h

variable {source : PackageId} {root : Path}

theorem edge?_of_load (h : load t doc fallback = .ok w) (hs : w.graph.contains source = true)
    (hraw : raw ∈ keptAfter t [] doc.packages) (hroot : raw.directory? t = some root)
    (he : ((listedEdges doc source).find? fun e => e.1 = raw.id) = some (raw.id, some name)) :
    w.graph.edge? source ⟨raw.id⟩ = some ⟨⟨raw.id⟩, if name = raw.foundName t root then none else some name⟩ := by
  obtain ⟨p, hp, hof⟩ := exists_packageOf (accounts_packagesOf t doc).kept hraw
  obtain rfl : p.root = root := Option.some_inj.1 (hof.root.symm.trans hroot)
  have hlib := libraryNameOf?_eq (accounts_packagesOf t doc).nodup_ids hp hof.id
  rw [Graph.edge?, edges?_of_load h hs, Option.getD_some, find?_loadEdges hlib List.not_mem_nil he,
    libraryName_of_packageOf hof]
  by_cases hname : name = raw.foundName t p.root <;> simp [hname]

/-- The edge that is kept of the first one to a kept package has its name unless that is the name of the library that is
found. So it has the name exactly when it is not the declared one, if the declared library has its source file; and in
general if the name is none of the two or they are one. Two trees give the edge different names if the library that is
found has the name in one of them alone. -/
theorem rename_declared_iff (h : load t doc fallback = .ok w) (hs : w.graph.contains source = true)
    (hraw : raw ∈ keptAfter t [] doc.packages) (hroot : raw.directory? t = some root)
    (he : ((listedEdges doc source).find? fun e => e.1 = raw.id) = some (raw.id, some name)) :
    ∃ d, w.graph.edge? source ⟨raw.id⟩ = some d ∧
      (d.rename = some name ↔ name ≠ raw.foundName t root) ∧ (d.rename = none ↔ name = raw.foundName t root) ∧
      (raw.HasLibrary t root → (d.rename = some name ↔ name ≠ raw.declaredName)) ∧
      ((d.rename = some name ↔ name ≠ raw.declaredName) ↔
        raw.foundName t root = raw.declaredName ∨ name ≠ raw.foundName t root ∧ name ≠ raw.declaredName) ∧
      ∀ {t' fallback' w' root'}, load t' doc fallback' = .ok w' → w'.graph.contains source = true →
        raw ∈ keptAfter t' [] doc.packages → raw.directory? t' = some root' →
        ∃ d', w'.graph.edge? source ⟨raw.id⟩ = some d' ∧
          (d'.rename = d.rename ↔ (name = raw.foundName t' root' ↔ name = raw.foundName t root)) := by
  have hedge : ∀ {t' fallback' w' root'}, load t' doc fallback' = .ok w' → w'.graph.contains source = true →
      raw ∈ keptAfter t' [] doc.packages → raw.directory? t' = some root' → _ :=
    fun h' hs' hraw' hroot' => edge?_of_load h' hs' hraw' hroot' he
  have hgiven : ∀ found, (if name = found then none else some name) = some name ↔ name ≠ found := by simp
  refine ⟨_, hedge h hs hraw hroot, hgiven _, by simp, fun hlib => ?_, ?_, fun h' hs' hraw' hroot' =>
    ⟨_, hedge h' hs' hraw' hroot', ?_⟩⟩
  · rw [hgiven, Metadata.Package.foundName_of_hasLibrary hlib]
  · rw [hgiven]
    by_cases hfound : name = raw.foundName t root <;> by_cases hdeclared : name = raw.declaredName
    · simp [← hfound, ← hdeclared]
    · simp [← hfound, hdeclared]
    · simp [← hdeclared, hfound, Ne.symm hfound]
    · simp [hfound, hdeclared]
  · by_cases hfound : name = raw.foundName t root <;> simp [hfound]

/-! A library under a name of its own, in a tree that has its source file and in one that does not. -/

def coreLibrary : Metadata.Target :=
  ⟨["lib"], "core-api", "/main.rs", ["lib"], none, none⟩

def core : Metadata.Package :=
  { nowhere with manifestPath := "/Cargo.toml", targets := [coreLibrary] }

def userNode : Metadata.Node :=
  ⟨"app 0.1.0", [], some [⟨"core_api", "lib 1.0.0"⟩]⟩

def usesCore : Metadata where
  version := some 1
  packages := [{ atRoot with targets := [] }, core]
  members := some ["app 0.1.0"]
  resolve := some [userNode]
  workspaceRoot := none

def noFile : FileTree :=
  ⟨[], []⟩

theorem kept_usesCore (t : FileTree) :
    keptAfter t [] usesCore.packages = usesCore.packages ∧ core.directory? t = some ⟨"/"⟩ := by
  have happ : ({ atRoot with targets := [] } : Metadata.Package).directory? t = some ⟨"/"⟩ := directory?_root t rfl
  have hcore : core.directory? t = some ⟨"/"⟩ := directory?_root t rfl
  have hfirst : isKept t ([], { atRoot with targets := [] }) = true := by rw [isKept, happ]; rfl
  have hsecond : isKept t ([{ atRoot with targets := [] }], core) = true := by rw [isKept, hcore]; rfl
  exact ⟨by simp [keptAfter, usesCore, placed, hfirst, hsecond], hcore⟩

theorem contains_usesCore (h : load t usesCore fallback = .ok w) : w.graph.contains ⟨"app 0.1.0"⟩ = true := by
  rw [contains_iff_kept h, (kept_usesCore t).1]
  decide

theorem hasSource_coreLibrary :
    coreLibrary.hasSource oneFile ⟨"/"⟩ = true ∧ coreLibrary.hasSource noFile ⟨"/"⟩ = false := by
  have hbelow : coreLibrary.sourceBelow ⟨"/"⟩ = ⟨"/main.rs"⟩ := by decide
  have hnone : noFile.fileAt? ⟨"/main.rs"⟩ = none := by
    have hname : ¬255 < "main.rs".utf8ByteSize := by decide
    have hask : FileTree.canAsk ["main.rs"] = true := by decide
    have hsegments : (⟨"/main.rs"⟩ : Path).segments = ["", "main.rs"] := by decide
    have hresolve : noFile.resolve ⟨"/main.rs"⟩ = .error .notFound := by
      rw [(noFile.resolve_and_reach_of_isAbsolute (by decide)).1, hsegments]
      simp [FileTree.walk, FileTree.isName, FileTree.entry?, FileTree.at?, FileTree.nameLimit, noFile, hname, hask]
    rw [FileTree.fileAt?, FileTree.canonical, hresolve]
    rfl
  constructor
  · rw [Metadata.Target.hasSource, hbelow, fileAt?_oneFile]
    simp [coreLibrary]
  · rw [Metadata.Target.hasSource, Metadata.Target.namesItself, hbelow,
      show coreLibrary.source = ⟨"/main.rs"⟩ from rfl, hnone]
    simp

/-- Without the source file the edge is named as if the library had another name; with it, it is not. -/
theorem rename_declared_iff_missing :
    core.declaredName = "core_api" ∧ core.foundName noFile ⟨"/"⟩ = "lib" ∧
    (∃ w d, load noFile usesCore ⟨"/"⟩ = .ok w ∧ w.graph.edge? ⟨"app 0.1.0"⟩ ⟨"lib 1.0.0"⟩ = some d ∧
      d.rename = some "core_api") ∧
    ∃ w d, load oneFile usesCore ⟨"/"⟩ = .ok w ∧ w.graph.edge? ⟨"app 0.1.0"⟩ ⟨"lib 1.0.0"⟩ = some d ∧
      d.rename = none := by
  have hloads : ∀ t, ∃ w, load t usesCore ⟨"/"⟩ = .ok w := fun t => ⟨_, rfl⟩
  have hcore : ∀ t, core ∈ keptAfter t [] usesCore.packages := fun t => by
    rw [(kept_usesCore t).1]
    simp [usesCore]
  have hlisted : ((listedEdges usesCore ⟨"app 0.1.0"⟩).find? fun e => e.1 = core.id) =
      some (core.id, some "core_api") := by decide
  have hdeclared : core.declaredName = "core_api" := by decide
  have hfound : core.foundName noFile ⟨"/"⟩ = "lib" := by
    rw [Metadata.Package.foundName, show core.targets = [coreLibrary] from rfl, List.filter_singleton,
      hasSource_coreLibrary.2]
    decide
  refine ⟨hdeclared, hfound, ?_, ?_⟩
  · obtain ⟨w, hw⟩ := hloads noFile
    obtain ⟨d, hd, hsome, -⟩ := rename_declared_iff hw (contains_usesCore hw) (hcore _) (kept_usesCore _).2 hlisted
    refine ⟨w, d, hw, hd, hsome.2 ?_⟩
    rw [hfound]
    decide
  · obtain ⟨w, hw⟩ := hloads oneFile
    have hlibrary : core.HasLibrary oneFile ⟨"/"⟩ := by
      intro target htarget
      have hdeclares : coreLibrary.declaresLibrary = true := by decide
      obtain rfl : coreLibrary = target := by simpa [core, List.find?_cons, hdeclares] using htarget
      exact hasSource_coreLibrary.1
    obtain ⟨d, hd, -, hnone, -⟩ := rename_declared_iff hw (contains_usesCore hw) (hcore _) (kept_usesCore _).2 hlisted
    refine ⟨w, d, hw, hd, hnone.2 ?_⟩
    rw [Metadata.Package.foundName_of_hasLibrary hlibrary, hdeclared]

end Workspace

end CrateYard
