import CrateYard.Proofs.Refresh.Snapshot

/-! The commit of a refresh. It was made ready from the projects that were attached at its start and meets those that
are attached now: what was detached meanwhile stays away, what is new stays as it is, and no project changes its
place. -/

namespace CrateYard

namespace Project

variable {p : Project} {snapshot refreshed : List Project}

theorem settle_of_refreshes (h : Probe.Refreshes snapshot refreshed) (hd : (snapshot.map key).Nodup) :
    if p.key ∈ snapshot.map key then p.settle refreshed ∈ refreshed ∧ (p.settle refreshed).key = p.key
    else p.settle refreshed = p := by
  rw [← h.keys] at hd ⊢
  split
  · next hk =>
    obtain ⟨q, hq, hkey⟩ := List.mem_map.1 hk
    rw [settle_of_mem hd hq hkey]
    exact ⟨hq, hkey⟩
  · next hk => exact settle_of_not_mem hk

end Project

namespace Yard

variable {s : Yard} {id : Nat}

theorem landing?_after {answer : List Project} (h : s.landing? id = some answer) (x : Act) :
    (s.after x).landing? id = some answer := by
  cases x with
  | attach manifest => exact (s.landing?_apply _ id).trans h
  | detach manifest => exact (s.landing?_apply _ id).trans h
  | setHostData manifest data => exact (s.landing?_apply _ id).trans h
  | commit projects => exact (s.landing?_apply _ id).trans h
  | takeOff =>
    change s.takeOff.landing? id = some answer
    rw [landing?_takeOff, h, Option.some_or]
  | turn n =>
    rcases turn_cases s n with ⟨-, hsame⟩ | ⟨f, -, ⟨-, hon⟩ | ⟨projects, -, hland⟩⟩
    · exact (congrArg (landing? · id) hsame).trans h
    · exact (hon.landing id).trans h
    · refine (hland.landing id).trans ?_
      rw [h]
      rfl
  | abandon n | wait ms | equip tree toolchain => exact h

theorem landing?_afterAll {answer : List Project} (h : s.landing? id = some answer) (acts : List Act) :
    (s.afterAll acts).landing? id = some answer := by
  induction acts generalizing s with
  | nil => exact h
  | cons x rest ih => exact ih (landing?_after h x)

theorem turn_of_not_landed (h : (s.turn id).landing? id = none) :
    (s.turn id).registry = s.registry ∧ (s.turn id).announcements = s.announcements := by
  rcases turn_cases s id with ⟨-, hsame⟩ | ⟨f, -, ⟨-, hon⟩ | ⟨projects, -, hland⟩⟩
  · rw [hsame]
    exact ⟨rfl, rfl⟩
  · exact ⟨hon.registry, hon.announcements⟩
  · have hlanded := hland.landing id
    rw [h, if_pos rfl] at hlanded
    cases hs : s.landing? id <;> simp [hs] at hlanded

theorem lands_of_landed (hopen : s.landing? id = none) (h : (s.turn id).landing? id ≠ none) :
    ∃ f projects, (id, f) ∈ s.flights ∧ (f.poll s.instant s.waited).1.landed? = some projects ∧
      Lands s id projects (s.turn id) ∧ (s.turn id).landing? id = some (s.registry.commit projects).answer := by
  rcases turn_cases s id with ⟨-, hsame⟩ | ⟨f, hf, ⟨-, hon⟩ | ⟨projects, hl, hland⟩⟩
  · rw [hsame] at h
    exact absurd hopen h
  · exact absurd ((hon.landing id).trans hopen) h
  · refine ⟨f, projects, hf, hl, hland, ?_⟩
    rw [hland.landing, hopen, if_pos rfl, Option.none_or]

theorem Lands.forall₂ {s' d : Yard} {projects : List Project} (h : Lands s id projects s') (hd : d.Sound)
    (hr : Probe.Refreshes d.registry.projects projects) :
    List.Forall₂ (fun p p' => if d.registry.isAttached p.manifest = true then
        p' ∈ projects ∧ p'.manifest.same p.manifest = true else p' = p)
      s.registry.projects s'.registry.projects := by
  rw [h.registry, Registry.projects_commit, List.forall₂_map_right_iff, List.forall₂_same]
  intro p _
  simp only [Registry.isAttached_iff, Path.same_iff]
  exact Project.settle_of_refreshes hr hd.keys

/-- The projects with which a flight lands are those that were attached when it took off, refreshed. -/
theorem refreshes_of_landed {tree : FileTree} {toolchain : Toolchain} {before between : List Act} {f : Flight}
    (hf : (((Yard.start tree toolchain).afterAll before).launched, f) ∈
      ((Yard.start tree toolchain).afterAll (before ++ .takeOff :: between)).flights) {i : Instant} {order : Nat}
    {projects : List Project} (hl : (f.poll i order).1.landed? = some projects) :
    Probe.Refreshes ((Yard.start tree toolchain).afterAll before).registry.projects projects := by
  obtain ⟨pre, post, he, hid, hcarries⟩ := exists_takeOff _ rfl _ hf
  obtain rfl : before = pre := takeOff_unique he hid.symm
  exact Flight.refreshes_of_landed (Flight.carries_poll hcarries i order) hl

/-- A refresh, and whatever acts between its start and one of its turns. Of an empty yard it lands at once with nothing,
and never announces. Any other announces and commits in one turn only, that with which it lands: a project is replaced
exactly if its manifest was attached at the start, by what was made of it, in its place; all others are as they were,
and what is attached is what was. It answers the replaced projects in the order of the start, and announces once, all
manifests. Before that turn and after it none of its turns changes a project or announces. -/
theorem commit_of_takeOff (tree : FileTree) (toolchain : Toolchain) (before between : List Act) :
    let s₀ := (Yard.start tree toolchain).afterAll before
    let id := s₀.launched
    let s := (s₀.after .takeOff).afterAll between
    let s' := s.after (.turn id)
    ((s₀.after .takeOff).registry = s₀.registry ∧ (s₀.after .takeOff).announcements = s₀.announcements) ∧
    (s₀.registry.projects = [] → s.landing? id = some [] ∧ s' = s) ∧
    (s₀.registry.projects ≠ [] → (s₀.after .takeOff).landing? id = none) ∧
    (s'.landing? id = none → s'.registry = s.registry ∧ s'.announcements = s.announcements) ∧
    (s.landing? id ≠ none → s' = s) ∧
    (s.landing? id = none → ∀ answer, s'.landing? id = some answer → ∃ refreshed,
      Probe.Refreshes s₀.registry.projects refreshed ∧
      List.Forall₂ (fun p p' => if s₀.registry.isAttached p.manifest = true then
          p' ∈ refreshed ∧ p'.manifest.same p.manifest = true else p' = p)
        s.registry.projects s'.registry.projects ∧
      answer = (refreshed.filter fun q => s.registry.isAttached q.manifest) ∧
      (∀ m, s'.registry.isAttached m = s.registry.isAttached m) ∧
      s'.announcements = s.announcements ++ [s'.registry.manifests]) := by
  intro s₀ id s s'
  have hsound₀ : s₀.Sound := (Sound.start tree toolchain).afterAll before
  have hsound : s.Sound := (hsound₀.after .takeOff).afterAll between
  have hlanding : (s₀.after .takeOff).landing? id = if s₀.registry.isEmpty = true then some [] else none := by
    refine (landing?_takeOff s₀ id).trans ?_
    rw [hsound₀.ahead id (Nat.le_refl _), Option.none_or]
    simp [id]
  have hover : s.landing? id ≠ none → s' = s := by
    intro h
    rcases turn_cases s id with ⟨-, hsame⟩ | ⟨f, hf, -⟩
    · exact hsame
    · exact absurd (hsound.aloft _ hf) h
  refine ⟨⟨s₀.registry_takeOff, s₀.announcements_takeOff⟩, fun hempty => ?_, fun hne => ?_, turn_of_not_landed, hover,
    fun hopen answer hanswer => ?_⟩
  · have hisEmpty : s₀.registry.isEmpty = true := by simp [Registry.isEmpty, hempty]
    rw [if_pos hisEmpty] at hlanding
    have hlanded : s.landing? id = some [] := landing?_afterAll hlanding between
    exact ⟨hlanded, hover (by simp [hlanded])⟩
  · have hisEmpty : ¬ s₀.registry.isEmpty = true := by simpa [Registry.isEmpty] using hne
    rw [if_neg hisEmpty] at hlanding
    exact hlanding
  · have hlanded : (s.turn id).landing? id = some answer := hanswer
    obtain ⟨f, projects, hf, hl, hlands, hcommit⟩ := lands_of_landed hopen (by simp [hlanded])
    have hflight : (id, f) ∈ ((Yard.start tree toolchain).afterAll (before ++ .takeOff :: between)).flights := by
      rw [afterAll_append]
      exact hf
    have hrefreshes : Probe.Refreshes s₀.registry.projects projects := refreshes_of_landed hflight hl
    refine ⟨projects, hrefreshes, hlands.forall₂ hsound₀ hrefreshes, ?_, fun m => ?_, hlands.announcements⟩
    · exact Option.some_inj.1 (hlanded.symm.trans hcommit)
    · apply Registry.isAttached_congr
      change (s.turn id).registry.keys = _
      rw [hlands.registry, Registry.keys_commit]

/-- Tools that know no compiler, and answer about every manifest alike. -/
def tools (delay : Nat) (answer : Except ToolError Metadata) : Toolchain :=
  ⟨⟨0, .error (.unreadable "rustc" "")⟩, ⟨0, .error (.unreadable "rustc" "")⟩, fun _ => ⟨delay, answer⟩⟩

/-- Of two projects that are being refreshed one is detached, and a third is attached: the other is replaced, and the
third is as it was. -/
theorem commit_of_takeOff_detach :
    let a : Path := ⟨"/a/Cargo.toml"⟩
    let b : Path := ⟨"/b/Cargo.toml"⟩
    let c : Path := ⟨"/c/Cargo.toml"⟩
    let s₀ := (Yard.start ⟨[], []⟩ (tools 0 (.error (.unreadable "cargo" "")))).afterAll [.attach a, .attach b]
    let s := (s₀.after .takeOff).afterAll [.detach a, .attach c]
    let s' := s.after (.turn 0)
    s'.registry.manifests = [b, c] ∧ s'.registry.project? c = some (.new c) ∧
      ∃ q, s'.landing? 0 = some [q] ∧ q.manifest = b ∧ s'.announcements = s.announcements ++ [[b, c]] := by
  intro a b c s₀ s s'
  have hopen : s.landing? 0 = none := by decide
  have hlanded : (s'.landing? 0).map (List.map Project.manifest) = some [b] := by decide
  have hmanifests : s'.registry.manifests = [b, c] := by decide
  obtain ⟨answer, hanswer, hb⟩ := Option.map_eq_some_iff.1 hlanded
  obtain ⟨q, rfl, hq⟩ := List.map_eq_singleton_iff.1 hb
  obtain ⟨-, -, -, -, -, hcommit⟩ := commit_of_takeOff ⟨[], []⟩ (tools 0 (.error (.unreadable "cargo" "")))
    [.attach a, .attach b] [.detach a, .attach c]
  obtain ⟨-, -, -, -, -, hannounced⟩ := hcommit hopen _ hanswer
  refine ⟨hmanifests, by decide, q, hanswer, hq, ?_⟩
  rw [← hmanifests]
  exact hannounced

end Yard

end CrateYard
