import CrateYard.Proofs.Refresh.Loss
import Mathlib.Data.Set.Basic

/-! What a flight makes of the answers. About the compiler it has what the tools in use at its start say. When these
answers are there it asks about all projects of its snapshot at one moment, and each project is refreshed with the
answer about its own manifest, read with the files of the moment at which that answer is taken. -/

namespace CrateYard

/-- A project of a flight waits for the answer about its manifest that was given when it was `asked`, or has been
refreshed with it at a moment of `past`. -/
def Loading.Answered (past : Set Instant) (asked : Instant) (probe : Probe) (p : Project) : Loading → Prop
  | .waiting old answer => old = p ∧ answer.value = (asked.toolchain.metadata p.manifest).answer
  | .loaded q => ∃ read ∈ past, q = probe.refreshed p
      (Workspace.ofAnswer read.tree p.manifest (asked.toolchain.metadata p.manifest).answer)

/-- A flight of this snapshot has, or waits for, what `tools` say about the compiler, and what was said about the
projects at a moment of `past`. -/
def Flight.Answered (past : Set Instant) (tools : Toolchain) (snapshot : List Project) : Flight → Prop
  | .probing projects compiler sysroot =>
    projects = snapshot ∧ compiler.value = tools.compiler.answer ∧ sysroot.value = tools.sysroot.answer
  | .loading probe projects => ∃ asked ∈ past,
    probe = Probe.ofAnswers asked.tree tools.compiler.answer tools.sysroot.answer ∧
      List.Forall₂ (Loading.Answered past asked probe) snapshot projects

/-- The projects that come of a snapshot, with the answers of `tools` about the compiler, and about each project with
what was said about it at one moment of `past`. -/
def Probe.Brings (past : Set Instant) (tools : Toolchain) (snapshot refreshed : List Project) : Prop :=
  ∃ asked ∈ past, List.Forall₂ (fun p q => ∃ read ∈ past,
    q = (Probe.ofAnswers asked.tree tools.compiler.answer tools.sysroot.answer).refreshed p
      (Workspace.ofAnswer read.tree p.manifest (asked.toolchain.metadata p.manifest).answer)) snapshot refreshed

theorem Probe.Brings.refreshes {past : Set Instant} {tools : Toolchain} {snapshot refreshed : List Project}
    (h : Brings past tools snapshot refreshed) : Refreshes snapshot refreshed := by
  obtain ⟨asked, -, h⟩ := h
  exact ⟨_, h.imp fun p q ⟨read, _, hq⟩ => ⟨_, hq⟩⟩

variable {past : Set Instant} {tools : Toolchain} {snapshot : List Project}

namespace Loading.Answered

variable {asked i : Instant} {probe : Probe} {p : Project} {l : Loading}

theorem mono {later : Set Instant} (h : l.Answered past asked probe p) (hsub : past ⊆ later) :
    l.Answered later asked probe p := by
  cases l with
  | waiting old answer => exact h
  | loaded q =>
    obtain ⟨read, hread, hq⟩ := h
    exact ⟨read, hsub hread, hq⟩

theorem poll (h : l.Answered past asked probe p) (hi : i ∈ past) : (l.poll i probe).Answered past asked probe p := by
  rcases l.poll_cases i probe with ⟨hsame, -⟩ | ⟨old, answer, rfl, -, hloaded⟩
  · rwa [hsame]
  · obtain ⟨rfl, hvalue⟩ := h
    rw [hloaded]
    exact ⟨i, hi, by rw [hvalue]⟩

end Loading.Answered

namespace Flight.Answered

variable {i : Instant} {f : Flight}

theorem mono {later : Set Instant} (h : f.Answered past tools snapshot) (hsub : past ⊆ later) :
    f.Answered later tools snapshot := by
  cases f with
  | probing projects compiler sysroot => exact h
  | loading probe projects =>
    obtain ⟨asked, hasked, hprobe, hprojects⟩ := h
    exact ⟨asked, hsub hasked, hprobe, hprojects.imp fun _ _ hl => hl.mono hsub⟩

theorem start (i : Instant) (order : Nat) (snapshot : List Project) :
    (Flight.start i order snapshot).Answered past i.toolchain snapshot :=
  ⟨rfl, rfl, rfl⟩

theorem depart (i : Instant) (probe : Probe) (order : Nat) (snapshot : List Project) :
    List.Forall₂ (Loading.Answered past i probe) snapshot (Flight.depart i order snapshot) := by
  induction snapshot generalizing order with
  | nil => exact .nil
  | cons p rest ih => exact .cons ⟨rfl, rfl⟩ (ih (order + 1))

theorem map_poll {asked : Instant} {probe : Probe} {projects : List Loading} (hi : i ∈ past)
    (h : List.Forall₂ (Loading.Answered past asked probe) snapshot projects) :
    List.Forall₂ (Loading.Answered past asked probe) snapshot (projects.map (Loading.poll i probe)) :=
  List.forall₂_map_right_iff.2 (h.imp fun _ _ hl => hl.poll hi)

theorem poll (h : f.Answered past tools snapshot) (hi : i ∈ past) (order : Nat) :
    (f.poll i order).1.Answered past tools snapshot := by
  cases f with
  | probing projects compiler sysroot =>
    obtain ⟨rfl, hcompiler, hsysroot⟩ := h
    by_cases hdue : compiler.due ≤ i.now ∧ sysroot.due ≤ i.now
    · rw [Flight.poll, if_pos hdue]
      exact ⟨i, hi, by rw [hcompiler, hsysroot], map_poll hi (depart i _ order projects)⟩
    · rw [Flight.poll, if_neg hdue]
      exact ⟨rfl, hcompiler, hsysroot⟩
  | loading probe projects =>
    obtain ⟨asked, hasked, hprobe, hprojects⟩ := h
    exact ⟨asked, hasked, hprobe, map_poll hi hprojects⟩

theorem brings {projects : List Project} (h : f.Answered past tools snapshot) (hl : f.landed? = some projects) :
    Probe.Brings past tools snapshot projects := by
  cases f with
  | probing projects compiler sysroot => cases hl
  | loading probe loadings =>
    obtain ⟨asked, hasked, rfl, hprojects⟩ := h
    obtain rfl := loadings_of_landed hl
    exact ⟨asked, hasked, List.forall₂_map_right_iff.1 hprojects⟩

end Flight.Answered

end CrateYard
