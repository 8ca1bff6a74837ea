import CrateYard.Proofs.Refresh.Alone

/-! Projects are refreshed together, but what the tools say about one of them shows in no other. Two refreshes of the
same yard, with tools that answer differently about one manifest, commit the same manifests and leave all other projects
the same. -/

namespace CrateYard

/-- Tools with the same answers to all questions but that about `m`. When they give them is left open. -/
structure Toolchain.AgreeBut (m : Path) (tools tools' : Toolchain) : Prop where
  compiler : tools.compiler.answer = tools'.compiler.answer
  sysroot : tools.sysroot.answer = tools'.sysroot.answer
  metadata : ∀ p : Path, p.same m = false → (tools.metadata p).answer = (tools'.metadata p).answer

/-- Projects of one manifest, the same in everything unless that is `m`. -/
def Project.AgreeBut (m : Path) (p q : Project) : Prop :=
  p.manifest = q.manifest ∧ (p.manifest.same m = false → p = q)

namespace Yard

variable {s s' : Yard} {m : Path}

theorem agreeBut_renewed (htree : s.tree = s'.tree) (h : s.toolchain.AgreeBut m s'.toolchain) (p : Project) :
    (s.renewed p).AgreeBut m (s'.renewed p) := by
  refine ⟨(s.manifest_renewed p).trans (s'.manifest_renewed p).symm, fun hother => ?_⟩
  rw [manifest_renewed] at hother
  rw [renewed, renewed, htree, h.compiler, h.sysroot, h.metadata _ hother]

theorem forall₂_agreeBut_renewed (htree : s.tree = s'.tree) (h : s.toolchain.AgreeBut m s'.toolchain)
    (projects : List Project) :
    List.Forall₂ (Project.AgreeBut m) (projects.map s.renewed) (projects.map s'.renewed) := by
  rw [List.forall₂_map_left_iff, List.forall₂_map_right_iff, List.forall₂_same]
  exact fun p _ => agreeBut_renewed htree h p

/-- While no refresh is on its way, a yard is refreshed with one of two sets of tools that agree but for `m`. With both
the refresh answers the manifests that are attached, in their order, and announces the same; and what it answers and
what it leaves in the yard is the same but for the project of `m`. -/
theorem agreeBut_refresh {tree : FileTree} {tools : Toolchain} {acts : List Act}
    (hquiet : ((Yard.start tree tools).afterAll acts).flights = []) {tools₁ tools₂ : Toolchain}
    (h : tools₁.AgreeBut m tools₂) (files : FileTree) :
    let s := (Yard.start tree tools).afterAll acts
    let r₁ := (s.after (.equip files tools₁)).refresh
    let r₂ := (s.after (.equip files tools₂)).refresh
    r₁.2.map Project.manifest = s.registry.manifests ∧ r₂.2.map Project.manifest = s.registry.manifests ∧
      r₁.1.announcements = r₂.1.announcements ∧ List.Forall₂ (Project.AgreeBut m) r₁.2 r₂.2 ∧
      List.Forall₂ (Project.AgreeBut m) r₁.1.registry.projects r₂.1.registry.projects := by
  intro s r₁ r₂
  have hs : s.Sound := (Sound.start tree tools).afterAll acts
  obtain ⟨hprojects₁, hanswer₁, hannounced₁, -⟩ := refresh_of_quiet (hs.after (.equip files tools₁)) hquiet
  obtain ⟨hprojects₂, hanswer₂, hannounced₂, -⟩ := refresh_of_quiet (hs.after (.equip files tools₂)) hquiet
  have hagree : List.Forall₂ (Project.AgreeBut m) (s.registry.projects.map (s.after (.equip files tools₁)).renewed)
      (s.registry.projects.map (s.after (.equip files tools₂)).renewed) := by
    refine forall₂_agreeBut_renewed ?_ ?_ _
    · rfl
    · exact h
  refine ⟨?_, ?_, hannounced₁.trans hannounced₂.symm, ?_, ?_⟩
  · exact (congrArg _ hanswer₁).trans (manifests_renewed _ _)
  · exact (congrArg _ hanswer₂).trans (manifests_renewed _ _)
  · rwa [hanswer₁, hanswer₂]
  · rwa [hprojects₁, hprojects₂]

/-- Tools that answer about all manifests alike, but about `m` as they please. -/
def toolsWith (m : Path) (reply : Reply Metadata) : Toolchain :=
  { tools 3 (.ok emptyDocument) with metadata := fun p => if p.same m then reply else ⟨3, .ok emptyDocument⟩ }

theorem toolsWith_agreeBut (m : Path) (reply reply' : Reply Metadata) :
    (toolsWith m reply).AgreeBut m (toolsWith m reply') :=
  ⟨rfl, rfl, fun p hp => by simp [toolsWith, hp]⟩

/-- One project fails at once, or is loaded later than the other: the other does not show it. -/
theorem agreeBut_refresh_failed :
    let a : Path := ⟨"/a/Cargo.toml"⟩
    let b : Path := ⟨"/b/Cargo.toml"⟩
    let failing := toolsWith a ⟨0, .error (.unreadable "cargo" "")⟩
    let slow := toolsWith a ⟨7, .ok emptyDocument⟩
    let s := (Yard.start ⟨[], []⟩ failing).afterAll [.attach a, .attach b]
    let r₁ := (s.after (.equip ⟨[], []⟩ failing)).refresh
    let r₂ := (s.after (.equip ⟨[], []⟩ slow)).refresh
    s.flights = [] ∧ failing.AgreeBut a slow ∧
      r₁.2.map (fun p => (p.manifest, p.workspace.isSome)) = [(a, false), (b, true)] ∧
      r₂.2.map (fun p => (p.manifest, p.workspace.isSome)) = [(a, true), (b, true)] ∧
      List.Forall₂ (Project.AgreeBut a) r₁.2 r₂.2 := by
  intro a b failing slow s r₁ r₂
  have hs : s.Sound := (Sound.start _ _).afterAll _
  have hquiet : s.flights = [] := by decide
  have htools : failing.AgreeBut a slow := toolsWith_agreeBut a _ _
  obtain ⟨-, hanswer₁, -⟩ := refresh_of_quiet (hs.after (.equip ⟨[], []⟩ failing)) hquiet
  obtain ⟨-, hanswer₂, -⟩ := refresh_of_quiet (hs.after (.equip ⟨[], []⟩ slow)) hquiet
  refine ⟨hquiet, htools, ?_, ?_, ?_⟩
  · refine (congrArg _ hanswer₁).trans ?_
    decide
  · refine (congrArg _ hanswer₂).trans ?_
    decide
  · obtain ⟨-, -, -, hagree, -⟩ := agreeBut_refresh hquiet htools ⟨[], []⟩
    exact hagree

end Yard

end CrateYard
