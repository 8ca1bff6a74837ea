import CrateYard.Proofs.Project.Operations
import CrateYard.Proofs.Workspace.Nearest

/-! The project that a file belongs to. The registry picks, among the projects that cover the file, one whose own
directory lies deepest. A project also covers the files below its packages, which may lie anywhere, and then the depth
of its directory says nothing about how closely it contains the file. So of the projects whose directories contain the
file the innermost is picked exactly if every project that only reaches the file through a package lies less deep. -/

namespace CrateYard

theorem not_sublist_swap {α : Type} {l : List α} (hd : l.Nodup) {a b : α} (h : [a, b].Sublist l) :
    ¬ [b, a].Sublist l := by
  induction l with
  | nil => cases h
  | cons c rest ih =>
    rw [List.nodup_cons] at hd
    intro h'
    cases h with
    | cons _ h =>
      cases h' with
      | cons _ h' => exact ih hd.2 h h'
      | cons_cons _ h' => exact hd.1 (h.subset (by simp))
    | cons_cons _ h =>
      cases h' with
      | cons _ h' => exact hd.1 (h'.subset (by simp))
      | cons_cons _ h' => exact hd.1 (List.singleton_sublist.1 h)

namespace Project

def Encloses (p : Project) (file : Path) : Prop :=
  file.startsWith p.directory = true

/-- The file lies below one of the project's packages, but not below its directory. -/
def OnlyReaches (p : Project) (file : Path) : Prop :=
  p.covers file = true ∧ ¬ p.Encloses file

instance (p : Project) (file : Path) : Decidable (p.Encloses file) :=
  inferInstanceAs (Decidable (_ = true))

instance (p : Project) (file : Path) : Decidable (p.OnlyReaches file) :=
  inferInstanceAs (Decidable (_ ∧ _))

variable {p : Project} {file : Path}

theorem Encloses.covers (h : p.Encloses file) : p.covers file = true := by
  rw [Project.covers, show file.startsWith p.directory = true from h, Bool.true_or]

end Project

namespace Registry

/-- `p` lies deeper than `q`, or as deep and was attached after it. -/
def Outranks (r : Registry) (p q : Project) : Prop :=
  q.directory.depth < p.directory.depth ∨
    q.directory.depth = p.directory.depth ∧ [q, p].Sublist r.projects

instance (r : Registry) (p q : Project) : Decidable (r.Outranks p q) :=
  inferInstanceAs (Decidable (_ ∨ _))

variable {r : Registry} {t : FileTree} {file : Path}

/-- The project that is picked covers the file, and outranks all others that do. -/
theorem exists_projectOf? (h : ∃ p ∈ r.projects, p.covers (t.locate file) = true) :
    ∃ q ∈ r.projects, r.projectOf? t file = some q ∧ q.covers (t.locate file) = true ∧
      ∀ p ∈ r.projects, p.covers (t.locate file) = true → p = q ∨ r.Outranks q p := by
  obtain ⟨p, hp, hcovers⟩ := h
  have hne : r.projects.filter (fun p => p.covers (t.locate file)) ≠ [] :=
    List.ne_nil_of_mem (List.mem_filter.2 ⟨hp, hcovers⟩)
  obtain ⟨q, pre, post, hq, hsplit, hpre, hpost⟩ := exists_lastMax (fun p => p.directory.depth) hne
  have hmem : ∀ p, p ∈ r.projects ∧ p.covers (t.locate file) = true ↔ p ∈ pre ++ q :: post := by
    intro p
    rw [← hsplit, List.mem_filter]
  have hsub : (pre ++ q :: post).Sublist r.projects := hsplit ▸ List.filter_sublist
  obtain ⟨hq', hcovers'⟩ := (hmem q).2 (by simp)
  refine ⟨q, hq', hq, hcovers', fun p hp hc => ?_⟩
  rcases List.mem_append.1 ((hmem p).1 ⟨hp, hc⟩) with hbefore | hafter
  · rcases Nat.lt_or_eq_of_le (hpre p hbefore) with hlt | heq
    · exact .inr (.inl hlt)
    · have hpq : [p, q].Sublist (pre ++ q :: post) :=
        (List.singleton_sublist.2 hbefore).append (List.singleton_sublist.2 List.mem_cons_self)
      exact .inr (.inr ⟨heq, hpq.trans hsub⟩)
  · rcases List.mem_cons.1 hafter with rfl | hafter
    · exact .inl rfl
    · exact .inr (.inl (hpost p hafter))

theorem Outranks.asymm (hd : r.projects.Nodup) {p q : Project} (h : r.Outranks p q) : ¬ r.Outranks q p := by
  rintro (h' | ⟨h', hs'⟩) <;> rcases h with h | ⟨h, hs⟩
  · omega
  · omega
  · omega
  · exact not_sublist_swap hd hs hs'

theorem nodup_projects_afterAll (ops : List Operation) : (empty.afterAll ops).projects.Nodup :=
  (inOrder_afterAll ops).nodup.of_map _

/-- A file below the directory of an attached project has a project, and no project whose directory contains the file
lies deeper than that. Its own directory contains the file exactly if each project that only reaches the file through a
package is outranked by one whose directory contains it. -/
theorem projectOf?_encloses_iff (ops : List Operation) (t : FileTree) (file : Path)
    (h : ∃ p ∈ (empty.afterAll ops).projects, p.Encloses (t.locate file)) :
    ∃ q ∈ (empty.afterAll ops).projects, (empty.afterAll ops).projectOf? t file = some q ∧
      (∀ p ∈ (empty.afterAll ops).projects, p.Encloses (t.locate file) → p.directory.depth ≤ q.directory.depth) ∧
      (q.Encloses (t.locate file) ↔
        ∀ b ∈ (empty.afterAll ops).projects, b.OnlyReaches (t.locate file) →
          ∃ p ∈ (empty.afterAll ops).projects, p.Encloses (t.locate file) ∧ (empty.afterAll ops).Outranks p b) := by
  obtain ⟨owner, howner, hencloses⟩ := h
  obtain ⟨q, hq, hanswer, hcovers, houtranks⟩ := exists_projectOf? ⟨owner, howner, hencloses.covers⟩
  refine ⟨q, hq, hanswer, fun p hp hp' => ?_, fun hq' b hb hreaches => ?_, fun hall => ?_⟩
  · rcases houtranks p hp hp'.covers with rfl | hlt | ⟨heq, -⟩
    · exact Nat.le_refl _
    · exact Nat.le_of_lt hlt
    · exact Nat.le_of_eq heq
  · refine ⟨q, hq, hq', (houtranks b hb hreaches.1).resolve_left fun he => ?_⟩
    exact hreaches.2 (he ▸ hq')
  · by_contra hnot
    obtain ⟨p, hp, hp', hout⟩ := hall q hq ⟨hcovers, hnot⟩
    rcases houtranks p hp hp'.covers with rfl | hout'
    · exact hnot hp'
    · exact hout.asymm (nodup_projects_afterAll ops) hout'

/-! A library and, deeper down elsewhere, a project that has the library among its packages. -/

def libraryManifest : Path := ⟨"/lib/Cargo.toml"⟩

def appManifest : Path := ⟨"/work/deep/app/Cargo.toml"⟩

def libraryPackage : Package where
  id := ⟨"lib 1.0.0"⟩
  name := "lib"
  version := "1.0.0"
  root := ⟨"/lib"⟩
  origin := .transitive
  edition := .e2021
  source := .path
  targets := []

/-- Both are attached, and the one below has been loaded. -/
def loadedBelow : List Operation :=
  [.attach libraryManifest, .attach appManifest,
    .commit [{ Project.new appManifest with workspace := some ⟨⟨"/work/deep/app"⟩, [⟨libraryPackage, []⟩]⟩ }]]

/-- A file of the library is taken for one of the project that only uses the library. -/
theorem projectOf?_encloses_iff_elsewhere :
    let t : FileTree := ⟨[], []⟩
    let file : Path := ⟨"/lib/src/lib.rs"⟩
    (∃ p ∈ (empty.afterAll loadedBelow).projects, p.Encloses (t.locate file)) ∧
      ∃ q, (empty.afterAll loadedBelow).projectOf? t file = some q ∧ q.manifest = appManifest ∧
        ¬ q.Encloses (t.locate file) := by
  intro t file
  have hlocate : t.locate file = file := by
    have hwalk : t.walk FileTree.canAsk FileTree.linkLimit [] file.segments = .error .notFound := by
      have hsize : "lib".utf8ByteSize ≤ 255 := by decide
      have hasked : FileTree.canAsk ["lib"] = true := by decide
      rw [show file.segments = ["", "lib", "src", "lib.rs"] by decide]
      simp [FileTree.walk, FileTree.isName, FileTree.entry?, FileTree.at?, FileTree.nameLimit, t, hsize, hasked]
    have hresolve : t.resolve file = .error .notFound := by
      have hstart : t.start file = [] := by decide
      rw [FileTree.resolve, if_neg (by decide), if_neg (by decide), hstart, hwalk]
    rw [FileTree.locate, FileTree.canonical, hresolve]
    rfl
  have henclosed : ∃ p ∈ (empty.afterAll loadedBelow).projects, p.Encloses (t.locate file) := by
    rw [hlocate]
    decide
  obtain ⟨q, -, hanswer, -, hiff⟩ := projectOf?_encloses_iff loadedBelow t file henclosed
  have hmanifest : ((empty.afterAll loadedBelow).projectOf? t file).map Project.manifest = some appManifest := by
    rw [projectOf?, hlocate]
    decide
  rw [hanswer] at hmanifest
  refine ⟨henclosed, q, hanswer, Option.some_inj.1 hmanifest, ?_⟩
  rw [hiff, hlocate]
  decide

end Registry

end CrateYard
