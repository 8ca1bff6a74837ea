import CrateYard.Proofs.Refresh.Landing

/-! How a loaded workspace is lost. A refresh that fails to load a project puts back the workspace that the project had
when the refresh took off; where that was none, and another refresh has brought a workspace since, it is gone. This is
the only way. -/

namespace CrateYard

/-- The project of a manifest is attached, and has a workspace. -/
def Registry.HasWorkspace (r : Registry) (m : Path) : Prop :=
  ∃ p, r.project? m = some p ∧ p.workspace.isSome = true

instance Registry.decidableHasWorkspace (r : Registry) (m : Path) : Decidable (r.HasWorkspace m) :=
  decidable_of_iff ((r.project? m).any (fun p => p.workspace.isSome) = true) (by rw [Registry.HasWorkspace, Option.any_eq_true])

namespace Probe

variable {probe : Probe} {p : Project}

theorem workspace_refreshed_eq_none {loaded : Except ToolError Workspace} :
    (probe.refreshed p loaded).workspace = none ↔
      p.workspace = none ∧ ∃ reason, (probe.refreshed p loaded).workspaceStatus = .failed reason := by
  cases loaded with
  | ok workspace => simp [refreshed]
  | error e => simp [refreshed]

end Probe

namespace Yard

variable {s : Yard} {m : Path}

/-- As long as a project stays attached, only the landing of a refresh can take its workspace. -/
theorem hasWorkspace_after (h : s.registry.HasWorkspace m) {x : Act} (hx : ∀ projects, x ≠ .commit projects)
    (hm : (s.after x).registry.isAttached m = true) :
    (s.after x).registry.HasWorkspace m ∨ ∃ id f projects, x = .turn id ∧ (id, f) ∈ s.flights ∧
      (f.poll s.instant s.waited).1.landed? = some projects ∧ Lands s id projects (s.after x) := by
  obtain ⟨p, hp, hw⟩ := h
  cases x with
  | attach manifest =>
    refine .inl ⟨p, ?_, hw⟩
    change (s.registry.attach manifest).registry.project? m = some p
    rw [Registry.project?_attach (Registry.isAttached_of_project? hp), hp]
  | detach manifest =>
    refine .inl ⟨p, ?_, hw⟩
    change (s.registry.detach manifest).registry.project? m = some p
    rw [Registry.project?_detach hm, hp]
  | setHostData manifest data =>
    have hsame := s.registry.project?_setHostData m manifest data
    rw [hp, Option.map_some] at hsame
    obtain ⟨q, hq, hworkspace⟩ := Option.map_eq_some_iff.1 hsame
    exact .inl ⟨q, hq, by rw [hworkspace]; exact hw⟩
  | commit projects => exact absurd rfl (hx projects)
  | takeOff =>
    refine .inl ⟨p, ?_, hw⟩
    change s.takeOff.registry.project? m = some p
    rw [registry_takeOff, hp]
  | turn id =>
    rcases turn_cases s id with ⟨-, hsame⟩ | ⟨f, hf, ⟨-, hon⟩ | ⟨projects, hl, hland⟩⟩
    · exact .inl ⟨p, (congrArg (·.registry.project? m) hsame).trans hp, hw⟩
    · exact .inl ⟨p, (congrArg (·.project? m) hon.registry).trans hp, hw⟩
    · exact .inr ⟨id, f, projects, rfl, hf, hl, hland⟩
  | abandon id | wait ms | equip tree toolchain => exact .inl ⟨p, hp, hw⟩

/-- A project that is attached when a refresh lands: it was not attached when the refresh took off and is as it was, or
is what was made of the project that was attached then. -/
theorem project?_of_lands {d s s' : Yard} {id : Nat} {projects : List Project} (hd : d.Sound)
    (hr : Probe.Refreshes d.registry.projects projects) (hl : Lands s id projects s') {q : Project}
    (hq : s'.registry.project? m = some q) :
    d.registry.project? m = none ∧ s.registry.project? m = some q ∨ ∃ p, d.registry.project? m = some p ∧
      ∃ (probe : Probe) (loaded : Except ToolError Workspace), q = probe.refreshed p loaded := by
  rw [hl.registry, Registry.project?_commit] at hq
  obtain ⟨p, hp, rfl⟩ := Option.map_eq_some_iff.1 hq
  obtain ⟨-, hkey⟩ := Registry.of_project? hp
  have hsettle := Project.settle_of_refreshes (p := p) hr hd.keys
  split at hsettle
  · obtain ⟨hmem, hk⟩ := hsettle
    obtain ⟨old, hold, hk', probe, loaded, hq'⟩ := hr.exists_of_mem hmem
    refine .inr ⟨old, ?_, probe, loaded, hq'⟩
    exact (Registry.project?_eq_some_iff hd.keys).2 ⟨hold, hk'.trans (hk.trans hkey)⟩
  · next hnot =>
    rw [hsettle]
    refine .inl ⟨?_, hp⟩
    cases ho : d.registry.project? m with
    | none => rfl
    | some old =>
      obtain ⟨hold, hk⟩ := Registry.of_project? ho
      exact absurd (List.mem_map.2 ⟨old, hold, hk.trans hkey.symm⟩) hnot

theorem before_or_after {acts later pre post : List Act} {x : Act} (h : acts ++ later = pre ++ x :: post) :
    (∃ n ≤ later.length, pre = acts ++ later.take n) ∨ ∃ post', acts = pre ++ x :: post' := by
  rcases List.append_eq_append_iff.1 h with ⟨a, hpre, ha⟩ | ⟨a, hacts, ha⟩
  · refine .inl ⟨a.length, ?_, ?_⟩
    · rw [ha, List.length_append]
      exact Nat.le_add_right _ _
    · rw [ha, List.take_left, hpre]
  · cases a with
    | nil => exact .inl ⟨0, Nat.zero_le _, by rw [hacts, List.append_nil, List.take_zero, List.append_nil]⟩
    | cons y rest =>
      obtain ⟨rfl, -⟩ := List.cons.inj ha
      exact .inr ⟨rest, hacts⟩

/-- A landing that leaves a project without the workspace it had is that of a refresh which had none to put back. -/
theorem takeOff_of_lost {tree : FileTree} {toolchain : Toolchain} {acts : List Act} {id : Nat} {f : Flight}
    {projects : List Project} {p q : Project} {s' : Yard}
    (hf : (id, f) ∈ ((Yard.start tree toolchain).afterAll acts).flights) {i : Instant} {order : Nat}
    (hl : (f.poll i order).1.landed? = some projects)
    (hlands : Lands ((Yard.start tree toolchain).afterAll acts) id projects s')
    (hp : ((Yard.start tree toolchain).afterAll acts).registry.project? m = some p) (hw : p.workspace.isSome = true)
    (hq : s'.registry.project? m = some q) (hnone : q.workspace = none) :
    ∃ pre post, acts = pre ++ .takeOff :: post ∧ ((Yard.start tree toolchain).afterAll pre).launched = id ∧
      (∃ old, ((Yard.start tree toolchain).afterAll pre).registry.project? m = some old ∧ old.workspace = none) ∧
        ∃ reason, q.workspaceStatus = .failed reason := by
  obtain ⟨pre, post, he, hid, hcarries⟩ := exists_takeOff _ rfl _ hf
  have hrefreshes : Probe.Refreshes ((Yard.start tree toolchain).afterAll pre).registry.projects projects :=
    Flight.refreshes_of_landed (Flight.carries_poll hcarries _ _) hl
  refine ⟨pre, post, he, hid, ?_⟩
  rcases project?_of_lands ((Sound.start tree toolchain).afterAll pre) hrefreshes hlands hq with
    ⟨-, hsame⟩ | ⟨old, hold, probe, loaded, rfl⟩
  · -- it was not the business of the refresh
    obtain rfl : q = p := Option.some_inj.1 (hsame.symm.trans hp)
    rw [hnone] at hw
    cases hw
  · obtain ⟨holdnone, hfailed⟩ := Probe.workspace_refreshed_eq_none.1 hnone
    exact ⟨⟨old, hold, holdnone⟩, hfailed⟩

theorem workspace_eq_none_of_failed {tree : FileTree} {toolchain : Toolchain} {pre between : List Act} {p q : Project}
    {reason : String} :
    let d := (Yard.start tree toolchain).afterAll pre
    let s := (Yard.start tree toolchain).afterAll (pre ++ .takeOff :: between)
    s.landing? d.launched = none → (s.turn d.launched).landing? d.launched ≠ none →
      d.registry.project? m = some p → p.workspace = none →
      (s.turn d.launched).registry.project? m = some q → q.workspaceStatus = .failed reason → q.workspace = none := by
  intro d s hopen hlanded hp hpnone hq hreason
  obtain ⟨f, projects, hf, hl, hlands, -⟩ := lands_of_landed hopen hlanded
  have hrefreshes := refreshes_of_landed hf hl
  rcases project?_of_lands ((Sound.start tree toolchain).afterAll pre) hrefreshes hlands hq with
    ⟨hno, -⟩ | ⟨p', hp', probe, loaded, rfl⟩
  · rw [show d.registry.project? m = some p from hp] at hno
    cases hno
  · obtain rfl : p = p' := Option.some_inj.1 (hp.symm.trans hp')
    exact Probe.workspace_refreshed_eq_none.2 ⟨hpnone, reason, hreason⟩

/-- A project has a workspace after some acts, and after each of the acts that follow. Then one more act leaves it
attached and without a workspace exactly if that is the landing of a refresh which took off before, when the project was
attached without a workspace, and which has failed to load it. -/
theorem workspace_lost_iff {tree : FileTree} {toolchain : Toolchain} {acts later : List Act} {x : Act} {m : Path}
    (hx : ∀ projects, x ≠ .commit projects)
    (hhas : ∀ n ≤ later.length,
      ((Yard.start tree toolchain).afterAll (acts ++ later.take n)).registry.HasWorkspace m) :
    let s := (Yard.start tree toolchain).afterAll (acts ++ later)
    (s.after x).registry.isAttached m = true ∧ ¬ (s.after x).registry.HasWorkspace m ↔
      ∃ pre post, acts = pre ++ .takeOff :: post ∧
        let d := (Yard.start tree toolchain).afterAll pre
        x = .turn d.launched ∧ s.landing? d.launched = none ∧ (s.after x).landing? d.launched ≠ none ∧
          (∃ p, d.registry.project? m = some p ∧ p.workspace = none) ∧
          ∃ q reason, (s.after x).registry.project? m = some q ∧ q.workspaceStatus = .failed reason := by
  intro s
  have hnow : s.registry.HasWorkspace m := by
    have hall := hhas later.length (Nat.le_refl _)
    rwa [List.take_length] at hall
  constructor
  · rintro ⟨hattached, hlost⟩
    obtain ⟨id, f, projects, rfl, hf, hl, hlands⟩ := (hasWorkspace_after hnow hx hattached).resolve_left hlost
    obtain ⟨p, hp, hw⟩ := hnow
    obtain ⟨q, hq⟩ := Registry.exists_project? hattached
    have hnone : q.workspace = none := by
      cases hq' : q.workspace with
      | none => rfl
      | some graph => exact absurd ⟨q, hq, by rw [hq']; rfl⟩ hlost
    obtain ⟨pre, post, he, rfl, ⟨old, hold, holdnone⟩, reason, hreason⟩ := takeOff_of_lost hf hl hlands hp hw hq hnone
    rcases before_or_after he with ⟨n, hn, rfl⟩ | ⟨post', hacts⟩
    · -- a refresh that took off later would have found the workspace
      obtain ⟨p', hp', hw'⟩ := hhas n hn
      obtain rfl : old = p' := Option.some_inj.1 (hold.symm.trans hp')
      rw [holdnone] at hw'
      cases hw'
    · have hopen : s.landing? ((Yard.start tree toolchain).afterAll pre).launched = none :=
        ((Sound.start tree toolchain).afterAll _).aloft _ hf
      refine ⟨pre, post', hacts, rfl, hopen, ?_, ⟨old, hold, holdnone⟩, q, reason, hq, hreason⟩
      rw [hlands.landing, hopen, if_pos rfl]
      simp
  · rintro ⟨pre, post, rfl, rfl, hopen, hlanded, ⟨p, hp, hpnone⟩, q, reason, hq, hreason⟩
    refine ⟨Registry.isAttached_of_project? hq, ?_⟩
    rintro ⟨q', hq', hw⟩
    obtain rfl : q = q' := Option.some_inj.1 (hq.symm.trans hq')
    have hacts : pre ++ .takeOff :: post ++ later = pre ++ .takeOff :: (post ++ later) := List.append_assoc ..
    rw [show s = (Yard.start tree toolchain).afterAll (pre ++ .takeOff :: (post ++ later)) from
      congrArg _ hacts] at hopen hlanded hq
    rw [workspace_eq_none_of_failed hopen hlanded hp hpnone hq hreason] at hw
    cases hw

/-! Two refreshes of one project overlap. The first is slow and fails; the second, which takes off later, brings a
workspace. -/

/-- The document of a workspace without packages. -/
def emptyDocument : Metadata := ⟨some 1, [], some [], none, none⟩

def overlap (m : Path) : List Act :=
  [.attach m, .takeOff, .turn 0, .equip ⟨[], []⟩ (tools 0 (.ok emptyDocument)), .takeOff, .turn 1]

theorem workspace_lost_iff_overlap :
    let m : Path := ⟨"/app/Cargo.toml"⟩
    let s := (Yard.start ⟨[], []⟩ (tools 100 (.error (.unreadable "cargo" "")))).afterAll (overlap m ++ [.wait 100])
    s.registry.HasWorkspace m ∧
      (s.after (.turn 0)).registry.isAttached m = true ∧ ¬ (s.after (.turn 0)).registry.HasWorkspace m := by
  intro m s
  have hhas : ∀ n ≤ [Act.wait 100].length,
      ((Yard.start ⟨[], []⟩ (tools 100 (.error (.unreadable "cargo" "")))).afterAll
        (overlap m ++ [Act.wait 100].take n)).registry.HasWorkspace m := by
    decide
  refine ⟨hhas 1 (Nat.le_refl _), (workspace_lost_iff (fun _ h => by cases h) hhas).2 ?_⟩
  have hstatus : ((s.after (.turn 0)).registry.project? m).map Project.workspaceStatus =
      some (.failed (ToolError.unreadable "cargo" "").message) := by
    decide
  obtain ⟨q, hq, hreason⟩ := Option.map_eq_some_iff.1 hstatus
  refine ⟨[.attach m], (overlap m).drop 2, rfl, rfl, ?_, ?_, ⟨.new m, ?_, rfl⟩, q, _, hq, hreason⟩
  · decide
  · decide
  · decide

end Yard

end CrateYard
