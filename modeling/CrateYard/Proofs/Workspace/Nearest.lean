import CrateYard.Workspace.Owner
import Mathlib.Data.List.Basic

/-! The owners of a file. All directories around one file lie within each other, so it is enough to compare how deep
they lie: the deepest of them lies within all the others. The package of a file is one whose root is closest to it. The
target of a file is the first whose source file it is; if it is the source file of none, the first of those whose
directories are closest to it. -/

namespace CrateYard

section Greatest

variable {α : Type} (measure : α → Nat) {l : List α}

/-- The last of the greatest items: nothing before it is greater, and all that follows is less. -/
theorem exists_lastMax (hl : l ≠ []) :
    ∃ a pre post, lastMax measure l = some a ∧ l = pre ++ a :: post ∧
      (∀ b ∈ pre, measure b ≤ measure a) ∧ ∀ b ∈ post, measure b < measure a := by
  induction l with
  | nil => exact absurd rfl hl
  | cons a rest ih =>
    by_cases hrest : rest = []
    · subst hrest
      exact ⟨a, [], [], rfl, rfl, by simp, by simp⟩
    · obtain ⟨b, pre, post, hb, rfl, hpre, hpost⟩ := ih hrest
      by_cases hab : measure a ≤ measure b
      · refine ⟨b, a :: pre, post, by rw [lastMax, hb]; exact if_pos hab, rfl, ?_, hpost⟩
        exact List.forall_mem_cons.2 ⟨hab, hpre⟩
      · have hlt : measure b < measure a := Nat.lt_of_not_le hab
        refine ⟨a, [], pre ++ b :: post, by rw [lastMax, hb]; exact if_neg hab, rfl, by simp, fun c hc => ?_⟩
        rcases List.mem_append.1 hc with hc | hc
        · exact Nat.lt_of_le_of_lt (hpre c hc) hlt
        · rcases List.mem_cons.1 hc with rfl | hc
          · exact hlt
          · exact Nat.lt_trans (hpost c hc) hlt

theorem split_of_lastMax {a : α} (h : lastMax measure l = some a) :
    ∃ pre post, l = pre ++ a :: post ∧ (∀ b ∈ pre, measure b ≤ measure a) ∧ ∀ b ∈ post, measure b < measure a := by
  have hl : l ≠ [] := by
    rintro rfl
    cases h
  obtain ⟨b, pre, post, hb, hsplit, hpre, hpost⟩ := exists_lastMax measure hl
  obtain rfl : b = a := Option.some_inj.1 (hb.symm.trans h)
  exact ⟨pre, post, hsplit, hpre, hpost⟩

theorem mem_of_lastMax {a : α} (h : lastMax measure l = some a) : a ∈ l := by
  obtain ⟨pre, post, rfl, -⟩ := split_of_lastMax measure h
  simp

theorem exists_firstMax (hl : l ≠ []) :
    ∃ a pre post, firstMax measure l = some a ∧ l = pre ++ a :: post ∧
      (∀ b ∈ pre, measure b < measure a) ∧ ∀ b ∈ post, measure b ≤ measure a := by
  induction l with
  | nil => exact absurd rfl hl
  | cons a rest ih =>
    by_cases hrest : rest = []
    · subst hrest
      exact ⟨a, [], [], rfl, rfl, by simp, by simp⟩
    · obtain ⟨b, pre, post, hb, rfl, hpre, hpost⟩ := ih hrest
      by_cases hab : measure a < measure b
      · refine ⟨b, a :: pre, post, by simp [firstMax, hb, hab], rfl, ?_, hpost⟩
        exact List.forall_mem_cons.2 ⟨hab, hpre⟩
      · have hle : measure b ≤ measure a := Nat.le_of_not_lt hab
        refine ⟨a, [], pre ++ b :: post, by simp [firstMax, hb, hab], rfl, by simp, ?_⟩
        intro c hc
        rcases List.mem_append.1 hc with hc | hc
        · have := hpre c hc
          omega
        · rcases List.mem_cons.1 hc with rfl | hc
          · exact hle
          · have := hpost c hc
            omega

end Greatest

namespace Path

variable {file dir other : Path} {others : List Path}

theorem startsWith_iff : file.startsWith dir = true ↔ dir.components <+: file.components :=
  List.isPrefixOf_iff_prefix

theorem depth_le_of_startsWith (h : dir.startsWith other = true) : other.depth ≤ dir.depth := by
  rw [startsWith_iff] at h
  exact h.length_le

/-- Two directories around one file lie within each other. -/
theorem startsWith_of_depth_le (hdir : file.startsWith dir = true) (hother : file.startsWith other = true)
    (h : other.depth ≤ dir.depth) : dir.startsWith other = true := by
  rw [startsWith_iff] at hdir hother ⊢
  exact List.prefix_of_prefix_length_le hother hdir h

/-- A directory around a file that lies within all others around it. -/
def Closest (file : Path) (others : List Path) (dir : Path) : Prop :=
  file.startsWith dir = true ∧ ∀ other ∈ others, file.startsWith other = true → dir.startsWith other = true

instance (file : Path) (others : List Path) (dir : Path) : Decidable (Closest file others dir) :=
  inferInstanceAs (Decidable (_ ∧ _))

theorem closest_iff_depth :
    Closest file others dir ↔
      file.startsWith dir = true ∧ ∀ other ∈ others, file.startsWith other = true → other.depth ≤ dir.depth := by
  constructor
  · rintro ⟨hdir, hall⟩
    exact ⟨hdir, fun other ho hother => depth_le_of_startsWith (hall other ho hother)⟩
  · rintro ⟨hdir, hall⟩
    exact ⟨hdir, fun other ho hother => startsWith_of_depth_le hdir hother (hall other ho hother)⟩

end Path

namespace Graph

variable {g : Graph} {file : Path} {p : Package} {x : Package × Target}

def roots (g : Graph) : List Path :=
  g.packages.map (·.root)

def directories (g : Graph) : List Path :=
  g.allTargets.filterMap fun x => x.2.directory?

/-- The file is the source file of the target. If it is that of no target, the directory of this one's source file is
closest to it. -/
def Owns (g : Graph) (file : Path) (x : Package × Target) : Prop :=
  if ∃ y ∈ g.allTargets, y.2.crateRoot.same file = true then x.2.crateRoot.same file = true
  else ∃ dir ∈ x.2.directory?, Path.Closest file g.directories dir

/-! The package of a file. -/

theorem mem_of_packageOf? (h : g.packageOf? file = some p) : p ∈ g.packages ∧ file.startsWith p.root = true :=
  List.mem_filter.1 (mem_of_lastMax _ h)

theorem isSome_packageOf?_iff :
    (g.packageOf? file).isSome = true ↔ ∃ p ∈ g.packages, file.startsWith p.root = true := by
  constructor
  · intro h
    obtain ⟨p, hp⟩ := Option.isSome_iff_exists.1 h
    exact ⟨p, mem_of_packageOf? hp⟩
  · rintro ⟨p, hp, hfile⟩
    have hne : (g.packages.filter fun p => file.startsWith p.root) ≠ [] :=
      List.ne_nil_of_mem (List.mem_filter.2 ⟨hp, hfile⟩)
    obtain ⟨q, -, -, hq, -⟩ := exists_lastMax (fun p : Package => p.root.depth) hne
    rw [packageOf?, hq]
    rfl

theorem closest_of_packageOf? (h : g.packageOf? file = some p) :
    p ∈ g.packages ∧ Path.Closest file g.roots p.root := by
  obtain ⟨hp, hfile⟩ := mem_of_packageOf? h
  obtain ⟨pre, post, hsplit, hpre, hpost⟩ := split_of_lastMax _ h
  refine ⟨hp, Path.closest_iff_depth.2 ⟨hfile, ?_⟩⟩
  intro root hroot hfile'
  obtain ⟨b, hb, rfl⟩ := List.mem_map.1 hroot
  have hb' : b ∈ pre ++ p :: post := by
    rw [← hsplit]
    exact List.mem_filter.2 ⟨hb, hfile'⟩
  rcases List.mem_append.1 hb' with hbefore | hafter
  · exact hpre b hbefore
  · rcases List.mem_cons.1 hafter with rfl | hafter
    · exact Nat.le_refl _
    · exact Nat.le_of_lt (hpost b hafter)

/-! The target of a file. -/

/-- The file is the source file of the target, or lies below the directory of its source file. -/
def Reaches (file : Path) (t : Target) : Prop :=
  t.crateRoot.same file = true ∨ ∃ dir ∈ t.directory?, file.startsWith dir = true

theorem isSome_directoryAbove?_iff {t : Target} :
    (directoryAbove? file t).isSome = true ↔ ∃ dir ∈ t.directory?, file.startsWith dir = true := by
  cases h : t.directory? <;> simp [directoryAbove?, h]

theorem directoryDepth_of_mem {t : Target} {dir : Path} (h : dir ∈ t.directory?) : directoryDepth t = dir.depth := by
  rw [Option.mem_def] at h
  simp [directoryDepth, h]

theorem mem_directories_iff {dir : Path} : dir ∈ g.directories ↔ ∃ x ∈ g.allTargets, dir ∈ x.2.directory? := by
  simp [directories]

theorem owns_of_same (h : ∃ y ∈ g.allTargets, y.2.crateRoot.same file = true) :
    g.Owns file x ↔ x.2.crateRoot.same file = true := by
  rw [Owns, if_pos h]

theorem owns_of_none (h : ¬ ∃ y ∈ g.allTargets, y.2.crateRoot.same file = true) :
    g.Owns file x ↔ ∃ dir ∈ x.2.directory?, Path.Closest file g.directories dir := by
  rw [Owns, if_neg h]

/-- The target that is picked owns the file, and none before it does. -/
def Picks (g : Graph) (file : Path) (x : Package × Target) : Prop :=
  ∃ before after, g.allTargets = before ++ x :: after ∧ g.Owns file x ∧ ∀ y ∈ before, ¬ g.Owns file y

theorem targetOf?_of_same (h : ∃ y ∈ g.allTargets, y.2.crateRoot.same file = true) :
    ∃ x, g.targetOf? file = some x ∧ g.Picks file x := by
  obtain ⟨x, hx⟩ : ∃ x, g.allTargets.find? (fun x => x.2.crateRoot.same file) = some x :=
    Option.isSome_iff_exists.1 (by simpa [List.find?_isSome] using h)
  obtain ⟨hsame, before, after, hsplit, hbefore⟩ := List.find?_eq_some_iff_append.1 hx
  refine ⟨x, by simp [targetOf?, hx], before, after, hsplit, (owns_of_same h).2 hsame, ?_⟩
  intro y hy howns
  rw [owns_of_same h] at howns
  simpa [howns] using hbefore y hy

theorem targetOf?_of_none (hnone : ¬ ∃ y ∈ g.allTargets, y.2.crateRoot.same file = true) :
    g.targetOf? file =
      firstMax (fun x => directoryDepth x.2) (g.allTargets.filter fun x => (directoryAbove? file x.2).isSome) := by
  have hfind : g.allTargets.find? (fun x => x.2.crateRoot.same file) = none := by
    rw [List.find?_eq_none]
    intro x hx hsame
    exact hnone ⟨x, hx, hsame⟩
  simp [targetOf?, hfind]

theorem targetOf?_of_above (hnone : ¬ ∃ y ∈ g.allTargets, y.2.crateRoot.same file = true)
    (h : ∃ x ∈ g.allTargets, (directoryAbove? file x.2).isSome = true) :
    ∃ x, g.targetOf? file = some x ∧ g.Picks file x := by
  have hne : (g.allTargets.filter fun x => (directoryAbove? file x.2).isSome) ≠ [] := by
    obtain ⟨x, hx, habove⟩ := h
    exact List.ne_nil_of_mem (List.mem_filter.2 ⟨hx, habove⟩)
  obtain ⟨x, pre, post, hmax, hfilter, hpre, hpost⟩ :=
    exists_firstMax (fun x : Package × Target => directoryDepth x.2) hne
  have hbound : ∀ y ∈ g.allTargets, (directoryAbove? file y.2).isSome = true →
      directoryDepth y.2 ≤ directoryDepth x.2 := by
    intro y hy habove
    have hy' : y ∈ pre ++ x :: post := by
      rw [← hfilter]
      exact List.mem_filter.2 ⟨hy, habove⟩
    rcases List.mem_append.1 hy' with hy' | hy'
    · exact Nat.le_of_lt (hpre y hy')
    · rcases List.mem_cons.1 hy' with rfl | hy'
      · exact Nat.le_refl _
      · exact hpost y hy'
  obtain ⟨front, back, hsplit, rfl, hback⟩ := List.filter_eq_append_iff.1 hfilter
  obtain ⟨skipped, after, rfl, hskipped, habove, -⟩ := List.filter_eq_cons_iff.1 hback
  obtain ⟨dir, hdir, hfile⟩ := isSome_directoryAbove?_iff.1 habove
  have hclosest : Path.Closest file g.directories dir := by
    refine Path.closest_iff_depth.2 ⟨hfile, ?_⟩
    intro other hother hfile'
    obtain ⟨y, hy, hother⟩ := mem_directories_iff.1 hother
    have := hbound y hy (isSome_directoryAbove?_iff.2 ⟨other, hother, hfile'⟩)
    rwa [directoryDepth_of_mem hother, directoryDepth_of_mem hdir] at this
  refine ⟨x, by rw [targetOf?_of_none hnone, hmax], front ++ skipped, after, by simp [hsplit],
    (owns_of_none hnone).2 ⟨dir, hdir, hclosest⟩, ?_⟩
  intro y hy howns
  obtain ⟨other, hother, hfile', hall⟩ := (owns_of_none hnone).1 howns
  have habove' : (directoryAbove? file y.2).isSome = true := isSome_directoryAbove?_iff.2 ⟨other, hother, hfile'⟩
  rcases List.mem_append.1 hy with hy | hy
  · -- it stands before the first of the deepest, but `dir` lies around the file too, and so around its directory
    have hlt := hpre y (List.mem_filter.2 ⟨hy, habove'⟩)
    have hle := Path.depth_le_of_startsWith (hall dir (mem_directories_iff.2 ⟨x, by simp [hsplit], hdir⟩) hfile)
    rw [directoryDepth_of_mem hother, directoryDepth_of_mem hdir] at hlt
    omega
  · exact hskipped y hy habove'

theorem targetOf?_eq_none (hnone : ¬ ∃ y ∈ g.allTargets, y.2.crateRoot.same file = true)
    (h : ¬ ∃ x ∈ g.allTargets, (directoryAbove? file x.2).isSome = true) : g.targetOf? file = none := by
  have hnil : (g.allTargets.filter fun x => (directoryAbove? file x.2).isSome) = [] := by
    rw [List.filter_eq_nil_iff]
    intro x hx habove
    exact h ⟨x, hx, habove⟩
  rw [targetOf?_of_none hnone, hnil, firstMax]

theorem targetOf?_cases (g : Graph) (file : Path) :
    (∃ x, g.targetOf? file = some x ∧ g.Picks file x ∧ ∃ y ∈ g.allTargets, Reaches file y.2) ∨
    (g.targetOf? file = none ∧ ¬ ∃ y ∈ g.allTargets, Reaches file y.2) := by
  by_cases hsame : ∃ y ∈ g.allTargets, y.2.crateRoot.same file = true
  · obtain ⟨x, hx, hpicks⟩ := targetOf?_of_same hsame
    obtain ⟨y, hy, hy'⟩ := hsame
    exact .inl ⟨x, hx, hpicks, y, hy, .inl hy'⟩
  · by_cases habove : ∃ x ∈ g.allTargets, (directoryAbove? file x.2).isSome = true
    · obtain ⟨x, hx, hpicks⟩ := targetOf?_of_above hsame habove
      obtain ⟨y, hy, hy'⟩ := habove
      exact .inl ⟨x, hx, hpicks, y, hy, .inr (isSome_directoryAbove?_iff.1 hy')⟩
    · refine .inr ⟨targetOf?_eq_none hsame habove, ?_⟩
      rintro ⟨y, hy, hy' | hy'⟩
      · exact hsame ⟨y, hy, hy'⟩
      · exact habove ⟨y, hy, isSome_directoryAbove?_iff.2 hy'⟩

/-- A file has a package exactly if the root of one contains it, and then every root that contains the file contains
the root of its package. A file has a target exactly if it is the source file of one or the directory of one's source
file contains it. Its target is the first whose source file it is; if there is none such, the first whose directory is
contained in all directories that contain the file. -/
theorem owners_closest (g : Graph) (file : Path) :
    ((g.packageOf? file).isSome = true ↔ ∃ p ∈ g.packages, file.startsWith p.root = true) ∧
    (∀ p, g.packageOf? file = some p → p ∈ g.packages ∧ Path.Closest file g.roots p.root) ∧
    ((g.targetOf? file).isSome = true ↔ ∃ x ∈ g.allTargets, Reaches file x.2) ∧
    ∀ x, g.targetOf? file = some x → g.Picks file x := by
  refine ⟨isSome_packageOf?_iff, fun p => closest_of_packageOf?, ?_, ?_⟩
  · rcases targetOf?_cases g file with ⟨x, hx, -, hsome⟩ | ⟨hx, hnone⟩
    · rw [hx]
      exact iff_of_true rfl hsome
    · rw [hx]
      exact iff_of_false Bool.false_ne_true hnone
  · intro x hx
    rcases targetOf?_cases g file with ⟨y, hy, hpicks, -⟩ | ⟨hy, -⟩
    · rw [hx] at hy
      cases hy
      exact hpicks
    · simp [hx] at hy

/-! A workspace with a package at its root, one below it in a directory that is written with doubled slashes, and one
beside that with a longer name; and one without a root. -/

def sourceFile (text : String) : Target :=
  { (default : Target) with name := text, crateRoot := ⟨text⟩ }

def packageAt (root : String) (sources : List String) : Package :=
  { (default : Package) with id := ⟨root⟩, root := ⟨root⟩, targets := sources.map sourceFile }

def beside : Graph where
  root := ⟨"/ws"⟩
  nodes := [packageAt "/ws//app/" ["/ws/app/src/lib.rs", "/ws/app/./src/main.rs"],
    packageAt "/ws" ["/ws/src/lib.rs", "/ws/app/src/bin/tool.rs"], packageAt "/ws/app2" ["/ws/app2/src/lib.rs"],
    packageAt "" [""]].map fun p => ⟨p, []⟩

theorem owners_closest_beside :
    (∃ p, beside.packageOf? ⟨"/ws/app/src/parser.rs"⟩ = some p ∧ p.root = ⟨"/ws//app/"⟩ ∧
      p.root.startsWith ⟨"/ws"⟩ = true) ∧
    (∃ p x, beside.targetOf? ⟨"/ws/app/src/parser.rs"⟩ = some (p, x) ∧ x.name = "/ws/app/src/lib.rs" ∧
      beside.Picks ⟨"/ws/app/src/parser.rs"⟩ (p, x)) ∧
    (∃ p x, beside.targetOf? ⟨"/ws/app//src/main.rs"⟩ = some (p, x) ∧ x.name = "/ws/app/./src/main.rs" ∧
      beside.Picks ⟨"/ws/app//src/main.rs"⟩ (p, x)) := by
  obtain ⟨-, hclosest, -, hpicks⟩ := owners_closest beside ⟨"/ws/app/src/parser.rs"⟩
  obtain ⟨-, -, -, hpicks'⟩ := owners_closest beside ⟨"/ws/app//src/main.rs"⟩
  have hpackage : beside.packageOf? ⟨"/ws/app/src/parser.rs"⟩ =
      some (packageAt "/ws//app/" ["/ws/app/src/lib.rs", "/ws/app/./src/main.rs"]) := by decide
  have htarget : beside.targetOf? ⟨"/ws/app/src/parser.rs"⟩ =
      some (packageAt "/ws//app/" ["/ws/app/src/lib.rs", "/ws/app/./src/main.rs"], sourceFile "/ws/app/src/lib.rs") := by
    decide
  have htarget' : beside.targetOf? ⟨"/ws/app//src/main.rs"⟩ =
      some (packageAt "/ws//app/" ["/ws/app/src/lib.rs", "/ws/app/./src/main.rs"],
        sourceFile "/ws/app/./src/main.rs") := by decide
  refine ⟨⟨_, hpackage, rfl, ?_⟩, ⟨_, _, htarget, rfl, hpicks _ htarget⟩, ⟨_, _, htarget', rfl, hpicks' _ htarget'⟩⟩
  exact (hclosest _ hpackage).2.2 ⟨"/ws"⟩ (by decide) (by decide)

end Graph

end CrateYard
