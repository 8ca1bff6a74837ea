import CrateYard.Proofs.Refresh.Answers

/-! A refresh that has the yard to itself. As long as it has not landed it waits for something that is still to come; the
next thing to come gives it a turn, and never puts off the time at which it is to land. So it lands at that time, if it
is waited for that long, and then has put in the place of each project what the files and the tools make of it. -/

namespace CrateYard

theorem foldl_max_le_iff (l : List Nat) (a b : Nat) : l.foldl max a ≤ b ↔ a ≤ b ∧ ∀ x ∈ l, x ≤ b := by
  induction l generalizing a with
  | nil => simp
  | cons x rest ih => rw [List.foldl_cons, ih, Nat.max_le, List.forall_mem_cons, and_assoc]

theorem le_foldl_max {l : List Nat} {x : Nat} (a : Nat) (hx : x ∈ l) : x ≤ l.foldl max a :=
  ((foldl_max_le_iff l a _).1 (Nat.le_refl _)).2 x hx

namespace Flight

variable {f : Flight} {i : Instant} {order now : Nat} {w : Nat × Nat}

/-! What a flight waits for. -/

/-- Something that it waits for is still to come. -/
def Awaits (f : Flight) (now : Nat) : Prop :=
  ∃ w ∈ f.waits, now < w.1

theorem mem_waits_of_mem_map_poll {probe : Probe} {loadings : List Loading}
    (hw : w ∈ (Flight.loading probe (loadings.map (Loading.poll i probe))).waits) :
    w ∈ (Flight.loading probe loadings).waits := by
  obtain ⟨l', hl', hwait⟩ := List.mem_filterMap.1 hw
  obtain ⟨l, hl, rfl⟩ := List.mem_map.1 hl'
  refine List.mem_filterMap.2 ⟨l, hl, ?_⟩
  rcases l.poll_cases i probe with ⟨hsame, -⟩ | ⟨old, answer, -, -, hloaded⟩
  · rwa [hsame] at hwait
  · rw [hloaded] at hwait
    cases hwait

theorem exists_wait_of_not_landed {probe : Probe} {loadings : List Loading}
    (h : (Flight.loading probe loadings).landed? = none) : ∃ l ∈ loadings, ∃ w, l.wait? = some w := by
  change loadings.mapM Loading.project? = none at h
  induction loadings with
  | nil => cases h
  | cons l rest ih =>
    cases l with
    | waiting old answer => exact ⟨_, List.mem_cons_self, _, rfl⟩
    | loaded p =>
      have hrest : rest.mapM Loading.project? = none := by
        rw [List.mapM_cons] at h
        cases hrest : rest.mapM Loading.project? with
        | none => rfl
        | some projects => rw [hrest] at h; cases h
      obtain ⟨l, hl, hwait⟩ := ih hrest
      exact ⟨l, List.mem_cons_of_mem _ hl, hwait⟩

theorem awaits_map_poll {probe : Probe} {loadings : List Loading}
    (h : (Flight.loading probe (loadings.map (Loading.poll i probe))).landed? = none) :
    (Flight.loading probe (loadings.map (Loading.poll i probe))).Awaits i.now := by
  obtain ⟨l', hl', w, hwait⟩ := exists_wait_of_not_landed h
  refine ⟨w, List.mem_filterMap.2 ⟨l', hl', hwait⟩, ?_⟩
  obtain ⟨l, -, rfl⟩ := List.mem_map.1 hl'
  rcases l.poll_cases i probe with ⟨hsame, hlate⟩ | ⟨old, answer, -, -, hloaded⟩
  · exact hlate w (hsame ▸ hwait)
  · rw [hloaded] at hwait
    cases hwait

theorem awaits_poll (h : (f.poll i order).1.landed? = none) : (f.poll i order).1.Awaits i.now := by
  cases f with
  | probing snapshot compiler sysroot =>
    by_cases hdue : compiler.due ≤ i.now ∧ sysroot.due ≤ i.now
    · rw [poll, if_pos hdue] at h ⊢
      exact awaits_map_poll h
    · rw [poll, if_neg hdue]
      rcases Decidable.not_and_iff_or_not.1 hdue with hlate | hlate
      · exact ⟨_, List.mem_cons_self, Nat.lt_of_not_le hlate⟩
      · exact ⟨_, List.mem_cons_of_mem _ List.mem_cons_self, Nat.lt_of_not_le hlate⟩
  | loading probe loadings => exact awaits_map_poll h

theorem exists_nextDue (h : f.Awaits now) :
    ∃ time, f.nextDue? now = some time ∧ now < time ∧ ∃ w ∈ f.waits, w.1 = time := by
  obtain ⟨w, hw, hlt⟩ := h
  cases hdue : f.nextDue? now with
  | none =>
    have hmem : w.1 ∈ (f.waits.map (·.1)).filter (now < ·) :=
      List.mem_filter.2 ⟨List.mem_map_of_mem hw, decide_eq_true hlt⟩
    rw [List.min?_eq_none_iff.1 hdue] at hmem
    cases hmem
  | some time =>
    obtain ⟨hmem, hnow⟩ := List.mem_filter.1 (List.min?_mem hdue)
    exact ⟨time, rfl, of_decide_eq_true hnow, List.mem_map.1 hmem⟩

theorem exists_turnAt {time : Nat} (hw : w ∈ f.waits) (htime : w.1 = time) : ∃ n, f.turnAt? time = some n := by
  cases hturn : f.turnAt? time with
  | none =>
    have hmem : w.2 ∈ (f.waits.filter fun w => w.1 = time).map (·.2) :=
      List.mem_map_of_mem (List.mem_filter.2 ⟨hw, decide_eq_true htime⟩)
    rw [List.min?_eq_none_iff.1 hturn] at hmem
    cases hmem
  | some n => exact ⟨n, rfl⟩

/-! When it is to land. -/

theorem le_landingTime (tools : Toolchain) (hw : w ∈ f.waits) : w.1 ≤ f.landingTime tools := by
  have hle : w.1 ≤ (f.waits.map (·.1)).foldl max 0 := le_foldl_max 0 (List.mem_map_of_mem hw)
  cases f with
  | probing snapshot compiler sysroot => exact Nat.le_trans hle (Nat.le_add_right _ _)
  | loading probe loadings => exact hle

theorem exists_of_mem_waits_depart {probe : Probe} {snapshot : List Project}
    (hw : w ∈ (Flight.loading probe (depart i order snapshot)).waits) :
    ∃ p ∈ snapshot, w.1 = i.now + (i.toolchain.metadata p.manifest).delay := by
  induction snapshot generalizing order with
  | nil => cases hw
  | cons p rest ih =>
    rcases List.mem_cons.1 hw with rfl | hw
    · exact ⟨p, List.mem_cons_self, rfl⟩
    · obtain ⟨q, hq, htime⟩ := ih hw
      exact ⟨q, List.mem_cons_of_mem _ hq, htime⟩

/-- A turn before the last thing has come does not put off the landing. -/
theorem landingTime_poll_le (h : ∃ w ∈ f.waits, i.now ≤ w.1) :
    (f.poll i order).1.landingTime i.toolchain ≤ f.landingTime i.toolchain := by
  cases f with
  | probing snapshot compiler sysroot =>
    by_cases hdue : compiler.due ≤ i.now ∧ sysroot.due ≤ i.now
    · rw [poll, if_pos hdue]
      refine (foldl_max_le_iff _ _ _).2 ⟨Nat.zero_le _, fun time htime => ?_⟩
      obtain ⟨w, hw, rfl⟩ := List.mem_map.1 htime
      obtain ⟨p, hp, htime⟩ := exists_of_mem_waits_depart (mem_waits_of_mem_map_poll hw)
      -- the questions about the projects are asked by then, and no answer takes longer than the slowest
      obtain ⟨asked, hasked, hnow⟩ := h
      have hlast : asked.1 ≤ ((Flight.probing snapshot compiler sysroot).waits.map (·.1)).foldl max 0 :=
        le_foldl_max 0 (List.mem_map_of_mem hasked)
      have hslowest : (i.toolchain.metadata p.manifest).delay ≤
          (snapshot.map fun p => (i.toolchain.metadata p.manifest).delay).foldl max 0 :=
        le_foldl_max 0 (List.mem_map_of_mem hp)
      rw [htime]
      exact Nat.add_le_add (Nat.le_trans hnow hlast) hslowest
    · rw [poll, if_neg hdue]
  | loading probe loadings =>
    refine (foldl_max_le_iff _ _ _).2 ⟨Nat.zero_le _, fun time htime => ?_⟩
    obtain ⟨w, hw, rfl⟩ := List.mem_map.1 htime
    exact le_landingTime i.toolchain (mem_waits_of_mem_map_poll hw)

end Flight

namespace Registry

variable {r : Registry}

theorem commit_map (h : r.keys.Nodup) {g : Project → Project} (hg : ∀ p, (g p).manifest = p.manifest) :
    (r.commit (r.projects.map g)).registry.projects = r.projects.map g ∧
      (r.commit (r.projects.map g)).answer = r.projects.map g := by
  refine commit_of_keys_eq h ?_
  rw [List.map_map]
  exact List.map_congr_left fun p _ => congrArg Path.components (hg p)

end Registry

namespace Yard

/-- What a refresh makes of a project with the files and the tools of the yard. -/
def renewed (s : Yard) (p : Project) : Project :=
  (Probe.ofAnswers s.tree s.toolchain.compiler.answer s.toolchain.sysroot.answer).refreshed p
    (Workspace.ofAnswer s.tree p.manifest (s.toolchain.metadata p.manifest).answer)

/-- The moments with these files and tools. -/
def unchanged (s : Yard) : Set Instant :=
  {i | i.tree = s.tree ∧ i.toolchain = s.toolchain}

variable {s₀ s : Yard} {id : Nat} {f : Flight}

theorem manifest_renewed (s : Yard) (p : Project) : (s.renewed p).manifest = p.manifest :=
  Probe.manifest_refreshed _ _ _

theorem manifests_renewed (s : Yard) (projects : List Project) :
    (projects.map s.renewed).map Project.manifest = projects.map Project.manifest := by
  rw [List.map_map]
  exact List.map_congr_left fun p _ => s.manifest_renewed p

theorem eq_map_renewed {snapshot refreshed : List Project}
    (h : Probe.Brings s.unchanged s.toolchain snapshot refreshed) : refreshed = snapshot.map s.renewed := by
  obtain ⟨asked, ⟨htree, htools⟩, h⟩ := h
  have hrenewed : List.Forall₂ (fun p q => s.renewed p = q) snapshot refreshed := by
    refine h.imp fun p q hread => ?_
    obtain ⟨read, ⟨htree', -⟩, rfl⟩ := hread
    rw [htree, htools, htree', renewed]
  have hmap : List.Forall₂ (· = ·) (snapshot.map s.renewed) refreshed := List.forall₂_map_left_iff.2 hrenewed
  rw [List.forall₂_eq_eq_eq] at hmap
  exact hmap.symm

@[simp]
theorem turn_tree (s : Yard) (id : Nat) : (s.turn id).tree = s.tree := by
  unfold turn
  split
  · rfl
  · dsimp only
    split <;> rfl

@[simp]
theorem turn_toolchain (s : Yard) (id : Nat) : (s.turn id).toolchain = s.toolchain := by
  unfold turn
  split
  · rfl
  · dsimp only
    split <;> rfl

/-- The refresh `id` of the yard `s₀` is on its way, and nothing else has happened. -/
structure Aloft (s₀ : Yard) (id : Nat) (f : Flight) (s : Yard) : Prop where
  tree : s.tree = s₀.tree
  toolchain : s.toolchain = s₀.toolchain
  registry : s.registry = s₀.registry
  announcements : s.announcements = s₀.announcements
  flights : s.flights = [(id, f)]
  landing : s.landing? id = none
  answered : f.Answered s₀.unchanged s₀.toolchain s₀.registry.projects

/-- The refresh `id` of the yard `s₀` has landed, and nothing else has happened. -/
structure Landed (s₀ : Yard) (id : Nat) (s : Yard) : Prop where
  projects : s.registry.projects = s₀.registry.projects.map s₀.renewed
  announcements : s.announcements = s₀.announcements ++ [s₀.registry.manifests]
  flights : s.flights = []
  landing : s.landing? id = some (s₀.registry.projects.map s₀.renewed)

theorem aloft_takeOff (hs : s.Sound) (hquiet : s.flights = []) (hne : ¬ s.registry.isEmpty = true) :
    s.Aloft s.launched (Flight.start s.instant s.waited s.registry.projects) s.takeOff := by
  have hlanding : s.takeOff.landing? s.launched = none := by
    rw [landing?_takeOff, if_neg fun h => hne h.1, hs.ahead _ (Nat.le_refl _)]
    rfl
  have htakeOff : s.takeOff.tree = s.tree ∧ s.takeOff.toolchain = s.toolchain ∧ s.takeOff.flights =
      s.flights ++ [(s.launched, Flight.start s.instant s.waited s.registry.projects)] := by
    unfold takeOff
    dsimp only
    rw [if_neg hne]
    exact ⟨rfl, rfl, rfl⟩
  obtain ⟨htree, htools, hflights⟩ := htakeOff
  rw [hquiet] at hflights
  exact ⟨htree, htools, s.registry_takeOff, s.announcements_takeOff, hflights, hlanding, .start s.instant _ _⟩

theorem Aloft.turn (h : s₀.Aloft id f s) (hk : s₀.registry.keys.Nodup) :
    s₀.Landed id (s.turn id) ∨
      s₀.Aloft id (f.poll s.instant s.waited).1 (s.turn id) ∧ (f.poll s.instant s.waited).1.Awaits s.now := by
  have hanswered := h.answered.poll (i := s.instant) ⟨h.tree, h.toolchain⟩ s.waited
  rcases turn_cases s id with ⟨hnone, -⟩ | ⟨g, hg, hcases⟩
  · exact absurd (h.flights ▸ List.mem_singleton_self _) (hnone f)
  · rw [h.flights] at hg
    obtain rfl : g = f := (Prod.mk.inj (List.mem_singleton.1 hg)).2
    rcases hcases with ⟨hl, hon⟩ | ⟨projects, hl, hland⟩
    · refine .inr ⟨⟨by rw [turn_tree, h.tree], by rw [turn_toolchain, h.toolchain], hon.registry.trans h.registry,
        hon.announcements.trans h.announcements, ?_, (hon.landing id).trans h.landing, hanswered⟩, Flight.awaits_poll hl⟩
      rw [hon.flights, h.flights, List.map_singleton, if_pos rfl]
    · obtain rfl := eq_map_renewed (hanswered.brings hl)
      obtain ⟨hprojects, hanswer⟩ := Registry.commit_map hk s₀.manifest_renewed
      have hregistry := hland.registry
      rw [h.registry] at hregistry
      refine .inl ⟨by rw [hregistry, hprojects], ?_, ?_, ?_⟩
      · rw [hland.announcements, h.announcements, Registry.manifests, hregistry, hprojects, manifests_renewed]
        rfl
      · apply List.eq_nil_iff_forall_not_mem.2
        intro g hg
        obtain ⟨hmem, hne⟩ := hland.flights g hg
        rw [h.flights] at hmem
        exact hne (by rw [List.mem_singleton.1 hmem])
      · rw [hland.landing, h.landing, if_pos rfl, h.registry, hanswer]
        rfl

/-! The clock goes on. -/

theorem advanceTo_of_quiet (hquiet : s.flights = []) (awaited : Option Nat) (limit : Nat) :
    s.advanceTo awaited limit = { s with now := max s.now limit } := by
  have hdue : s.nextDue? = none := by rw [nextDue?, hquiet]; rfl
  rw [advanceTo, hdue]

theorem Landed.advanceTo (h : s₀.Landed id s) (awaited : Option Nat) (limit : Nat) :
    s₀.Landed id (s.advanceTo awaited limit) := by
  rw [advanceTo_of_quiet h.flights]
  exact ⟨h.projects, h.announcements, h.flights, h.landing⟩

theorem wake_eq_turn (hflights : s.flights = [(id, f)]) {time : Nat} (hw : ∃ w ∈ f.waits, w.1 = time)
    (awaited : Option Nat) : s.wake awaited time = Yard.turn { s with now := time } id := by
  obtain ⟨w, hw, htime⟩ := hw
  obtain ⟨n, hn⟩ := Flight.exists_turnAt hw htime
  have hready : ready { s with now := time } awaited = [id] := by
    by_cases h : some id = awaited <;> simp [ready, hflights, hn, h]
  rw [wake, hready]
  rfl

theorem Aloft.wait (h : s₀.Aloft id f s) (time : Nat) : s₀.Aloft id f { s with now := time } :=
  ⟨h.tree, h.toolchain, h.registry, h.announcements, h.flights, h.landing, h.answered⟩

theorem Aloft.exists_nextDue (h : s₀.Aloft id f s) (hawaits : f.Awaits s.now) :
    ∃ w ∈ f.waits, s.nextDue? = some w.1 ∧ s.now < w.1 := by
  obtain ⟨time, htime, hnow, w, hw, rfl⟩ := Flight.exists_nextDue hawaits
  refine ⟨w, hw, ?_, hnow⟩
  rw [nextDue?, h.flights]
  simp [htime]

/-- The clock goes on to a limit: the refresh lands, unless it is to land later than that. -/
theorem Aloft.advanceTo (h : s₀.Aloft id f s) (hk : s₀.registry.keys.Nodup) (hawaits : f.Awaits s.now)
    (awaited : Option Nat) (limit : Nat) :
    s₀.Landed id (s.advanceTo awaited limit) ∨
      limit < f.landingTime s₀.toolchain ∧ ∃ g, s₀.Aloft id g (s.advanceTo awaited limit) := by
  fun_induction Yard.advanceTo awaited limit s generalizing f with
  | case1 s time htime hlt ih =>
    obtain ⟨w, hw, hdue, hnow⟩ := h.exists_nextDue hawaits
    obtain rfl : time = w.1 := Option.some_inj.1 (htime.symm.trans hdue)
    rw [wake_eq_turn h.flights ⟨w, hw, rfl⟩] at ih ⊢
    rcases (h.wait w.1).turn hk with hlanded | ⟨haloft, hawaits'⟩
    · exact .inl (hlanded.advanceTo awaited limit)
    · rcases ih haloft (by rwa [turn_now]) with hlanded | ⟨hlate, haloft'⟩
      · exact .inl hlanded
      · have hle : (f.poll (instant { s with now := w.1 }) s.waited).1.landingTime s.toolchain ≤
            f.landingTime s.toolchain :=
          Flight.landingTime_poll_le ⟨w, hw, Nat.le_refl _⟩
        refine .inr ⟨Nat.lt_of_lt_of_le hlate ?_, haloft'⟩
        rw [← h.toolchain]
        exact hle
  | case2 s time htime hge =>
    obtain ⟨w, hw, hdue, hnow⟩ := h.exists_nextDue hawaits
    obtain rfl : time = w.1 := Option.some_inj.1 (htime.symm.trans hdue)
    have hlate : limit < w.1 := Nat.lt_of_not_le fun hle => hge ⟨hnow, hle⟩
    exact .inr ⟨Nat.lt_of_lt_of_le hlate (Flight.le_landingTime _ hw), f, h.wait _⟩
  | case3 s htime =>
    obtain ⟨w, -, hdue, -⟩ := h.exists_nextDue hawaits
    rw [hdue] at htime
    cases htime

theorem landed_or_aloft_launch (hs : s.Sound) (hquiet : s.flights = []) (hne : ¬ s.registry.isEmpty = true) :
    s.Landed s.launched s.launch.1 ∨ ∃ f, s.Aloft s.launched f s.launch.1 ∧ f.Awaits s.launch.1.now := by
  have hlaunch : s.launch.1 = s.takeOff.turn s.launched := by
    rw [launch_eq, if_neg hne]
    rfl
  rw [hlaunch, turn_now]
  exact ((aloft_takeOff hs hquiet hne).turn hs.keys).imp_right fun h => ⟨_, h⟩

theorem refresh_fst (s : Yard) :
    s.refresh.1 = s.launch.1.advanceTo (some s.launched) (s.launch.1.landingTime s.launched) := by
  rw [refresh, launch_eq]

theorem refresh_snd (s : Yard) : s.refresh.2 = (s.refresh.1.landing? s.launched).getD [] := by
  rw [refresh, launch_eq]

theorem landed_refresh (hs : s.Sound) (hquiet : s.flights = []) (hne : ¬ s.registry.isEmpty = true) :
    s.Landed s.launched s.refresh.1 := by
  rw [refresh_fst]
  rcases landed_or_aloft_launch hs hquiet hne with hlanded | ⟨f, haloft, hawaits⟩
  · exact hlanded.advanceTo _ _
  · have htime : s.launch.1.landingTime s.launched = f.landingTime s.toolchain := by
      rw [landingTime, haloft.flights, haloft.toolchain, List.lookup_cons_self]
    rcases haloft.advanceTo hs.keys hawaits _ _ with hlanded | ⟨hlate, -⟩
    · exact hlanded
    · rw [htime] at hlate
      exact absurd hlate (Nat.lt_irrefl _)

/-- A refresh with the yard to itself replaces every project by what the files and the tools make of it, and answers
these projects; it announces once, unless nothing is attached. -/
theorem refresh_of_quiet (hs : s.Sound) (hquiet : s.flights = []) :
    s.refresh.1.registry.projects = s.registry.projects.map s.renewed ∧
      s.refresh.2 = s.registry.projects.map s.renewed ∧
      s.refresh.1.announcements =
        s.announcements ++ (if s.registry.isEmpty then [] else [s.registry.manifests]) ∧
      s.refresh.1.flights = [] := by
  rw [refresh_snd]
  by_cases hempty : s.registry.isEmpty = true
  · have hprojects : s.registry.projects = [] := List.isEmpty_iff.1 hempty
    have hlaunch : s.launch.1 = s.takeOff := by
      rw [launch_eq, if_pos hempty]
      rfl
    have hflights : s.takeOff.flights = [] := by
      rw [takeOff, if_pos hempty]
      exact hquiet
    have hlanding : s.takeOff.landing? s.launched = some [] := by
      rw [landing?_takeOff, if_pos ⟨hempty, rfl⟩, hs.ahead _ (Nat.le_refl _)]
      rfl
    rw [refresh_fst, hlaunch, advanceTo_of_quiet hflights, hprojects, if_pos hempty]
    refine ⟨?_, ?_, ?_, hflights⟩
    · exact (congrArg Registry.projects s.registry_takeOff).trans hprojects
    · exact congrArg (·.getD []) hlanding
    · rw [List.append_nil]
      exact s.announcements_takeOff
  · have hlanded := landed_refresh hs hquiet hempty
    rw [hlanded.landing, if_neg hempty]
    exact ⟨hlanded.projects, rfl, hlanded.announcements, hlanded.flights⟩

end Yard

end CrateYard
