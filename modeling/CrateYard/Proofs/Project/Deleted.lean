import CrateYard.Proofs.FileTree.Deletion
import CrateYard.Proofs.Project.Owner

/-! The owners of a file that has just been deleted. While it is there, a file is looked up by its canonical path,
whatever it is called; once it is gone, by the text it is called by. The roots of projects and packages are canonical, so
the owners are found again by a text that is canonical too. Any other text leads to them exactly if the same owners are
closest to the text itself, as if it were canonical. -/

namespace CrateYard

namespace Path

variable {file file' dir : Path} {others : List Path}

theorem startsWith_congr (h : file.components = file'.components) : file.startsWith dir = file'.startsWith dir := by
  rw [startsWith, h, startsWith]

theorem startsWith_congr_right (h : file.components = file'.components) : dir.startsWith file = dir.startsWith file' := by
  rw [startsWith, h, startsWith]

theorem components_eq_of_startsWith (h : file.startsWith dir = true) (h' : dir.startsWith file = true) :
    dir.components = file.components := by
  rw [startsWith_iff] at h h'
  exact h.eq_of_length_le h'.length_le

end Path

namespace Graph

variable {g : Graph} {file file' : Path} {k : Package}

theorem packageOf?_congr (h : file.components = file'.components) : g.packageOf? file = g.packageOf? file' := by
  have hfilter : (g.packages.filter fun p => file.startsWith p.root) =
      g.packages.filter fun p => file'.startsWith p.root :=
    List.filter_congr fun p _ => Path.startsWith_congr h
  rw [packageOf?, hfilter, packageOf?]

/-- Several packages can have one root. Then the last of them is picked. -/
theorem last_of_packageOf? (h : g.packageOf? file = some k) :
    (g.packages.filter fun p => p.root.components = k.root.components).getLast? = some k := by
  obtain ⟨-, hfile⟩ := mem_of_packageOf? h
  obtain ⟨pre, post, hsplit, -, hpost⟩ := split_of_lastMax _ h
  -- those that have the root are among those that have the file
  have hamong : (g.packages.filter fun p => p.root.components = k.root.components) =
      (pre ++ k :: post).filter fun p => p.root.components = k.root.components := by
    rw [← hsplit, List.filter_filter]
    apply List.filter_congr
    intro p _
    by_cases hp : p.root.components = k.root.components
    · simp [hp, (Path.startsWith_congr_right hp).trans hfile]
    · simp [hp]
  have hafter : (post.filter fun p => p.root.components = k.root.components) = [] := by
    rw [List.filter_eq_nil_iff]
    intro p hp hroot
    have hless := hpost p hp
    simp only [decide_eq_true_eq] at hroot
    rw [Path.depth, Path.depth, hroot] at hless
    omega
  simp [hamong, hafter]

theorem packageOf?_eq_some_iff :
    g.packageOf? file = some k ↔ Path.Closest file g.roots k.root ∧
      (g.packages.filter fun p => p.root.components = k.root.components).getLast? = some k := by
  constructor
  · intro h
    exact ⟨(closest_of_packageOf? h).2, last_of_packageOf? h⟩
  · rintro ⟨⟨hfile, hall⟩, hlast⟩
    have hk : k ∈ g.packages := (List.mem_filter.1 (List.mem_of_getLast? hlast)).1
    obtain ⟨k', hk'⟩ := Option.isSome_iff_exists.1 (isSome_packageOf?_iff.2 ⟨k, hk, hfile⟩)
    obtain ⟨hmem', hfile', hall'⟩ := closest_of_packageOf? hk'
    have hroot : k'.root.components = k.root.components :=
      Path.components_eq_of_startsWith (hall _ (List.mem_map_of_mem hmem') hfile')
        (hall' _ (List.mem_map_of_mem hk) hfile)
    have hlast' := last_of_packageOf? hk'
    rw [hroot, hlast] at hlast'
    rw [hk', hlast']

end Graph

namespace Project

variable {p : Project} {file file' : Path} {k : Package}

def roots (p : Project) : List Path :=
  (p.workspace.map Graph.roots).getD []

theorem packageOf?_congr (h : file.components = file'.components) : p.packageOf? file = p.packageOf? file' := by
  rw [packageOf?, packageOf?]
  cases p.workspace with
  | none => rfl
  | some g => exact Graph.packageOf?_congr h

theorem covers_congr (h : file.components = file'.components) : p.covers file = p.covers file' := by
  rw [covers, covers, Path.startsWith_congr h, packageOf?_congr h]

/-- A package that is found for one file is found for all files that its root is closest to. -/
theorem packageOf?_eq_some_iff_closest (h : p.packageOf? file = some k) :
    p.packageOf? file' = some k ↔ Path.Closest file' p.roots k.root := by
  cases hw : p.workspace with
  | none => simp [packageOf?, hw] at h
  | some g =>
    simp only [packageOf?, hw, Option.bind_some, roots, Option.map_some, Option.getD_some] at h ⊢
    rw [Graph.packageOf?_eq_some_iff, (Graph.packageOf?_eq_some_iff.1 h).2]
    simp

end Project

namespace Registry

variable {r : Registry} {t : FileTree} {file : Path} {p : Project} {k : Package}

theorem projectOf?_eq_some_iff (hd : r.projects.Nodup) :
    r.projectOf? t file = some p ↔ p ∈ r.projects ∧ p.covers (t.locate file) = true ∧
      ∀ q ∈ r.projects, q.covers (t.locate file) = true → q = p ∨ r.Outranks p q := by
  constructor
  · intro h
    obtain ⟨hp, hcovers⟩ := List.mem_filter.1 (mem_of_lastMax _ h)
    obtain ⟨q, hq, hanswer, hcovers', houtranks⟩ := exists_projectOf? ⟨p, hp, hcovers⟩
    rw [h] at hanswer
    cases hanswer
    exact ⟨hp, hcovers, houtranks⟩
  · rintro ⟨hp, hcovers, houtranks⟩
    obtain ⟨q, hq, hanswer, hcovers', houtranks'⟩ := exists_projectOf? ⟨p, hp, hcovers⟩
    rcases houtranks q hq hcovers' with rfl | hpq
    · exact hanswer
    · rcases houtranks' p hp hcovers with rfl | hqp
      · exact hanswer
      · exact absurd hqp (hpq.asymm hd)

theorem packageOf?_eq_some_iff :
    r.packageOf? t file = some (p, k) ↔
      r.projectOf? t file = some p ∧ p.packageOf? (t.locate file) = some k := by
  rw [packageOf?]
  constructor
  · intro h
    obtain ⟨q, hq, hk⟩ := Option.bind_eq_some_iff.1 h
    obtain ⟨k', hk', he⟩ := Option.map_eq_some_iff.1 hk
    cases he
    exact ⟨hq, hk'⟩
  · rintro ⟨hp, hk⟩
    simp [hp, hk]

/-- No project is found before `p` for the file by its text, and no package of `p` before `k`. -/
def LeadsTo (r : Registry) (file : Path) (p : Project) (k : Package) : Prop :=
  Path.Closest file p.roots k.root ∧ ∀ q ∈ r.projects, q.covers file = true → q = p ∨ r.Outranks p q

instance (r : Registry) (file : Path) (p : Project) (k : Package) : Decidable (r.LeadsTo file p k) :=
  inferInstanceAs (Decidable (_ ∧ _))

/-- A file that is there and has a project and a package has the same ones after it was deleted exactly if its text
leads to them. A text that is canonical but for doubled slashes and single dots does. -/
theorem owners_erase_iff (ops : List Operation) (t : FileTree) (file : Path) (l : Location) (content : List UInt8)
    (p : Project) (k : Package) (hresolve : t.resolve file = .ok l) (hfile : t.entry? l = some (.file content))
    (howner : (empty.afterAll ops).packageOf? t file = some (p, k)) :
    (empty.afterAll ops).projectOf? t file = some p ∧
    ((empty.afterAll ops).projectOf? (t.erase l) file = some p ∧
        (empty.afterAll ops).packageOf? (t.erase l) file = some (p, k) ↔
      (empty.afterAll ops).LeadsTo file p k) ∧
    (file.components = l.toPath.components → (empty.afterAll ops).LeadsTo file p k) := by
  have hd := nodup_projects_afterAll ops
  obtain ⟨hproject, hpackage⟩ := packageOf?_eq_some_iff.1 howner
  obtain ⟨hp, -, houtranks⟩ := (projectOf?_eq_some_iff hd).1 hproject
  have hlocate : t.locate file = l.toPath := FileTree.locate_of_resolve hresolve hfile
  have hgone : (t.erase l).locate file = file := by
    apply FileTree.locate_erase hresolve
    rintro rfl
    cases hfile
  refine ⟨hproject, ⟨?_, ?_⟩, ?_⟩
  · rintro ⟨hproject', howner'⟩
    obtain ⟨-, hpackage'⟩ := packageOf?_eq_some_iff.1 howner'
    obtain ⟨-, -, houtranks'⟩ := (projectOf?_eq_some_iff hd).1 hproject'
    rw [hgone] at hpackage' houtranks'
    exact ⟨(Project.packageOf?_eq_some_iff_closest hpackage).1 hpackage', houtranks'⟩
  · rintro ⟨hclosest, houtranks'⟩
    have hpackage' : p.packageOf? file = some k := (Project.packageOf?_eq_some_iff_closest hpackage).2 hclosest
    have hcovers : p.covers file = true := by simp [Project.covers, hpackage']
    have hproject' : (empty.afterAll ops).projectOf? (t.erase l) file = some p := by
      rw [projectOf?_eq_some_iff hd, hgone]
      exact ⟨hp, hcovers, houtranks'⟩
    refine ⟨hproject', ?_⟩
    rw [packageOf?_eq_some_iff, hgone]
    exact ⟨hproject', hpackage'⟩
  · intro hsame
    rw [hlocate] at hpackage houtranks
    refine ⟨(Project.packageOf?_eq_some_iff_closest hpackage).1 ?_, ?_⟩
    · rw [Project.packageOf?_congr hsame]
      exact hpackage
    · intro q hq hcovers
      rw [Project.covers_congr hsame] at hcovers
      exact houtranks q hq hcovers

/-! A project with one package, and a link to its directory. -/

def linkedPackage : Package :=
  { (default : Package) with id := ⟨"app 1.0.0"⟩, root := ⟨"/app"⟩ }

def linkedProject : Project :=
  { Project.new ⟨"/app/Cargo.toml"⟩ with workspace := some ⟨⟨"/app"⟩, [⟨linkedPackage, []⟩]⟩ }

def loadedLinked : List Operation :=
  [.attach ⟨"/app/Cargo.toml"⟩, .commit [linkedProject]]

def linkedTree : FileTree :=
  ⟨[(["app"], .directory), (["app", "src"], .directory), (["app", "src", "lib.rs"], .file []), (["link"], .link "/app")],
    []⟩

theorem resolve_linked : linkedTree.resolve ⟨"/link/src/lib.rs"⟩ = .ok ["app", "src", "lib.rs"] := by
  have hsize : ¬ 255 < "app".utf8ByteSize ∧ ¬ 255 < "link".utf8ByteSize ∧ ¬ 255 < "src".utf8ByteSize ∧
      ¬ 255 < "lib.rs".utf8ByteSize := by decide
  have hasked : FileTree.canAsk ["link"] = true ∧ FileTree.canAsk ["app"] = true ∧
      FileTree.canAsk ["app", "src"] = true ∧ FileTree.canAsk ["app", "src", "lib.rs"] = true := by decide
  have htarget : Path.isAbsolute ⟨"/app"⟩ = true ∧ Path.segments ⟨"/app"⟩ = ["", "app"] := by decide
  have hstart : linkedTree.start ⟨"/link/src/lib.rs"⟩ = [] := by decide
  have hsegments : Path.segments ⟨"/link/src/lib.rs"⟩ = ["", "link", "src", "lib.rs"] := by decide
  rw [FileTree.resolve, if_neg (by decide), if_neg (by decide), hstart, hsegments]
  simp [FileTree.walk, FileTree.isName, FileTree.entry?, FileTree.at?, FileTree.nameLimit, FileTree.linkLimit,
    linkedTree, List.lookup_cons, hsize, hasked, htarget]

/-- The source file has its project and package under the name of the link. They are not found any more when it was
deleted. -/
theorem owners_erase_iff_linked :
    let r := empty.afterAll loadedLinked
    let gone := linkedTree.erase ["app", "src", "lib.rs"]
    let file : Path := ⟨"/link/src/lib.rs"⟩
    linkedTree.resolve file = .ok ["app", "src", "lib.rs"] ∧
      linkedTree.entry? ["app", "src", "lib.rs"] = some (.file []) ∧
      r.packageOf? linkedTree file = some (linkedProject, linkedPackage) ∧
      r.projectOf? linkedTree file = some linkedProject ∧
      ¬ (r.projectOf? gone file = some linkedProject ∧ r.packageOf? gone file = some (linkedProject, linkedPackage)) := by
  intro r gone file
  have hfile : linkedTree.entry? ["app", "src", "lib.rs"] = some (.file []) := by decide
  have howner : r.packageOf? linkedTree file = some (linkedProject, linkedPackage) := by
    rw [packageOf?, projectOf?, FileTree.locate_of_resolve resolve_linked hfile]
    decide
  obtain ⟨hproject, hiff, -⟩ :=
    owners_erase_iff loadedLinked linkedTree file _ _ linkedProject linkedPackage resolve_linked hfile howner
  refine ⟨resolve_linked, hfile, howner, hproject, ?_⟩
  rw [hiff]
  decide

end Registry

end CrateYard
