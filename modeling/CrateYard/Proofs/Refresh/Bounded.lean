import CrateYard.Proofs.Refresh.Alone

/-! A refresh that is waited for no longer than a time. Whenever it is given up it has not changed a project or
announced anything, and it never will; and if it is not given up it has committed one batch. -/

namespace CrateYard

namespace Yard

variable {s₀ s : Yard} {id : Nat}

/-! What a clock keeps. -/

/-- What turns and the passing of time keep is kept however far the clock goes. -/
theorem advanceTo_induction {P : Yard → Prop} (turn : ∀ s n, P s → P (s.turn n))
    (wait : ∀ (s : Yard) time, P s → P { s with now := time }) (awaited : Option Nat) (limit : Nat) (h : P s) :
    P (s.advanceTo awaited limit) := by
  have hturns : ∀ (ids : List Nat) (s : Yard), P s → P (ids.foldl Yard.turn s) := fun ids _ h =>
    List.foldlRecOn ids Yard.turn h fun s h n _ => turn s n h
  fun_induction Yard.advanceTo awaited limit s with
  | case1 s time hdue hlt ih => exact ih (hturns _ _ (wait s time h))
  | case2 s time hdue hlt => exact wait s _ h
  | case3 s hdue => exact wait s _ h

theorem turn_of_grounded (h : ∀ f, (id, f) ∉ s.flights) : s.turn id = s := by
  rcases turn_cases s id with ⟨-, hsame⟩ | ⟨f, hf, -⟩
  · exact hsame
  · exact absurd hf (h f)

/-! A refresh that was given up. -/

/-- The refresh `id` took off, and neither is on its way nor has landed. -/
structure GivenUp (id : Nat) (s : Yard) : Prop where
  launched : id < s.launched
  grounded : ∀ f, (id, f) ∉ s.flights
  landing : s.landing? id = none

namespace GivenUp

theorem turn (h : GivenUp id s) (n : Nat) : GivenUp id (s.turn n) := by
  rcases turn_cases s n with ⟨-, hsame⟩ | ⟨f, hf, ⟨-, hon⟩ | ⟨projects, -, hland⟩⟩
  · rw [hsame]
    exact h
  · refine ⟨hon.launched ▸ h.launched, fun g hg => ?_, (hon.landing id).trans h.landing⟩
    obtain ⟨⟨m, g'⟩, hg', rfl⟩ := hon.ids hg
    exact h.grounded g' hg'
  · have hne : n ≠ id := fun he => h.grounded f (he ▸ hf)
    refine ⟨hland.launched ▸ h.launched, fun g hg => h.grounded g (hland.flights _ hg).1, ?_⟩
    rw [hland.landing, h.landing, if_neg hne]
    rfl

theorem after (h : GivenUp id s) (x : Act) : GivenUp id (s.after x) := by
  cases x with
  | attach manifest => exact ⟨h.launched, h.grounded, (s.landing?_apply _ id).trans h.landing⟩
  | detach manifest => exact ⟨h.launched, h.grounded, (s.landing?_apply _ id).trans h.landing⟩
  | setHostData manifest data => exact ⟨h.launched, h.grounded, (s.landing?_apply _ id).trans h.landing⟩
  | commit projects => exact ⟨h.launched, h.grounded, (s.landing?_apply _ id).trans h.landing⟩
  | takeOff =>
    have hne : s.launched ≠ id := Nat.ne_of_gt h.launched
    refine ⟨?_, fun f hf => ?_, ?_⟩
    · change id < s.takeOff.launched
      rw [launched_takeOff]
      exact Nat.lt_succ_of_lt h.launched
    · rcases mem_flights_takeOff hf with hf | ⟨-, he⟩
      · exact h.grounded f hf
      · exact hne (congrArg Prod.fst he).symm
    · change s.takeOff.landing? id = none
      rw [landing?_takeOff, h.landing, if_neg fun he => hne he.2]
      rfl
  | turn n => exact h.turn n
  | abandon n => exact ⟨h.launched, fun f hf => h.grounded f (List.mem_filter.1 hf).1, h.landing⟩
  | wait ms | equip tree toolchain => exact ⟨h.launched, h.grounded, h.landing⟩

theorem afterAll (h : GivenUp id s) (acts : List Act) : GivenUp id (s.afterAll acts) := by
  induction acts generalizing s with
  | nil => exact h
  | cons x rest ih => exact ih (h.after x)

end GivenUp

/-! A refresh that is waited for. -/

/-- No refresh but `id` has landed since. -/
def OnlyLands (s₀ : Yard) (id : Nat) (s : Yard) : Prop :=
  ∀ n, n ≠ id → s.landing? n = s₀.landing? n

/-- How far the refresh `id` of the yard `s₀` is, if no other has landed since: on its way, done at once because nothing
was attached, or landed with one batch. -/
inductive Stage (s₀ : Yard) (id : Nat) (s : Yard) : Prop
  | aloft (landing : s.landing? id = none) (registry : s.registry = s₀.registry)
      (announcements : s.announcements = s₀.announcements) (attached : s₀.registry.projects ≠ [])
      (carries : ∀ f, (id, f) ∈ s.flights → f.Carries s₀.registry.projects)
  | vacant (landing : s.landing? id = some []) (registry : s.registry = s₀.registry)
      (announcements : s.announcements = s₀.announcements) (vacant : s₀.registry.projects = [])
  | landed {committed : List Project} (landing : s.landing? id = some committed)
      (projects : s.registry.projects = committed)
      (announcements : s.announcements = s₀.announcements ++ [s₀.registry.manifests])
      (attached : s₀.registry.projects ≠ []) (refreshes : Probe.Refreshes s₀.registry.projects committed)

/-- The refresh `id` of the yard `s₀` has begun. -/
structure Begun (s₀ : Yard) (id : Nat) (s : Yard) : Prop where
  sound : s.Sound
  launched : id < s.launched
  landings : ∀ n answer, s₀.landing? n = some answer → s.landing? n = some answer
  stage : OnlyLands s₀ id s → Stage s₀ id s

namespace Stage

theorem same {s' : Yard} (h : Stage s₀ id s) (hlanding : s'.landing? id = s.landing? id)
    (hregistry : s'.registry = s.registry) (hannouncements : s'.announcements = s.announcements)
    (hcarries : ∀ snapshot, (∀ f, (id, f) ∈ s.flights → f.Carries snapshot) →
      ∀ f, (id, f) ∈ s'.flights → f.Carries snapshot) : Stage s₀ id s' := by
  cases h with
  | aloft landing registry announcements attached carries =>
    exact .aloft (hlanding.trans landing) (hregistry.trans registry) (hannouncements.trans announcements) attached
      (hcarries _ carries)
  | vacant landing registry announcements vacant =>
    exact .vacant (hlanding.trans landing) (hregistry.trans registry) (hannouncements.trans announcements) vacant
  | landed landing projects announcements attached refreshes =>
    exact .landed (hlanding.trans landing) ((congrArg Registry.projects hregistry).trans projects)
      (hannouncements.trans announcements) attached refreshes

theorem of_open (h : Stage s₀ id s) (hopen : s.landing? id = none) :
    s.registry = s₀.registry ∧ s.announcements = s₀.announcements ∧ s₀.registry.projects ≠ [] := by
  cases h with
  | aloft landing registry announcements attached => exact ⟨registry, announcements, attached⟩
  | vacant landing => rw [hopen] at landing; cases landing
  | landed landing => rw [hopen] at landing; cases landing

theorem of_landed (h : Stage s₀ id s) {committed : List Project} (hlanded : s.landing? id = some committed) :
    (s₀.registry.projects = [] →
      committed = [] ∧ s.registry = s₀.registry ∧ s.announcements = s₀.announcements) ∧
    (s₀.registry.projects ≠ [] →
      Probe.Refreshes s₀.registry.projects committed ∧ s.registry.projects = committed ∧
        s.announcements = s₀.announcements ++ [s₀.registry.manifests]) := by
  cases h with
  | aloft landing => rw [hlanded] at landing; cases landing
  | vacant landing registry announcements vacant =>
    obtain rfl : committed = [] := Option.some_inj.1 (hlanded.symm.trans landing)
    exact ⟨fun _ => ⟨rfl, registry, announcements⟩, fun hne => absurd vacant hne⟩
  | landed landing projects announcements attached refreshes =>
    obtain rfl := Option.some_inj.1 (hlanded.symm.trans landing)
    exact ⟨fun hnil => absurd hnil attached, fun _ => ⟨refreshes, projects, announcements⟩⟩

end Stage

theorem FliesOn.carries {n : Nat} {f : Flight} {s' : Yard} {i : Instant} {order : Nat}
    (h : FliesOn s n (f.poll i order).1 s') (hf : (n, f) ∈ s.flights) {snapshot : List Project}
    (hcarries : ∀ g, (id, g) ∈ s.flights → g.Carries snapshot) :
    ∀ g, (id, g) ∈ s'.flights → g.Carries snapshot := by
  intro g hg
  rw [h.flights] at hg
  obtain ⟨⟨m, g'⟩, hg', he⟩ := List.mem_map.1 hg
  by_cases hm : m = n
  · rw [if_pos hm] at he
    obtain ⟨rfl, rfl⟩ := Prod.mk.inj he
    exact Flight.carries_poll (hcarries f hf) i order
  · rw [if_neg hm] at he
    obtain ⟨rfl, rfl⟩ := Prod.mk.inj he
    exact hcarries g' hg'

theorem Lands.batch {s' : Yard} {refreshed : List Project} (h : Lands s id refreshed s') (hs : s.Sound)
    (hr : Probe.Refreshes s.registry.projects refreshed) :
    s'.registry.projects = refreshed ∧ (s.registry.commit refreshed).answer = refreshed ∧
      s'.announcements = s.announcements ++ [s.registry.manifests] := by
  obtain ⟨hprojects, hanswer⟩ := Registry.commit_of_keys_eq hs.keys hr.keys
  rw [← h.registry] at hprojects
  exact ⟨hprojects, hanswer, by rw [h.announcements, Registry.manifests, hprojects, hr.manifests, Registry.manifests]⟩

namespace Begun

theorem wait (h : Begun s₀ id s) (time : Nat) : Begun s₀ id { s with now := time } :=
  ⟨⟨h.sound.keys, h.sound.ids, h.sound.aloft, h.sound.ahead⟩, h.launched, h.landings,
    fun honly => (h.stage honly).same rfl rfl rfl fun _ hcarries => hcarries⟩

theorem onlyLands (h : Begun s₀ id s) {x : Act} (honly : OnlyLands s₀ id (s.after x)) : OnlyLands s₀ id s := by
  intro n hne
  cases hn : s.landing? n with
  | some answer => rw [← honly n hne, landing?_after hn x]
  | none =>
    cases hn₀ : s₀.landing? n with
    | none => rfl
    | some answer => rw [h.landings n answer hn₀] at hn; cases hn

theorem turn (h : Begun s₀ id s) (n : Nat) : Begun s₀ id (s.turn n) := by
  refine ⟨h.sound.turn n, Nat.lt_of_lt_of_le h.launched (s.launched_le_after (.turn n)),
    fun m answer hm => landing?_after (h.landings m answer hm) (.turn n), fun honly => ?_⟩
  have hstage := h.stage (h.onlyLands (x := .turn n) honly)
  rcases turn_cases s n with ⟨-, hsame⟩ | ⟨f, hf, ⟨-, hon⟩ | ⟨projects, hl, hland⟩⟩
  · rw [hsame]
    exact hstage
  · exact hstage.same (hon.landing id) hon.registry hon.announcements fun _ hcarries => hon.carries hf hcarries
  · have hopen : s.landing? n = none := h.sound.aloft _ hf
    have hlanded := hland.landing n
    rw [hopen, if_pos rfl, Option.none_or] at hlanded
    -- it is the refresh itself that lands
    obtain rfl : n = id := by
      by_contra hne
      have hbefore := honly n hne
      rw [hlanded, ← h.onlyLands (x := .turn n) honly n hne, hopen] at hbefore
      cases hbefore
    cases hstage with
    | aloft landing registry announcements attached carries =>
      have hrefreshes := Flight.refreshes_of_landed (Flight.carries_poll (carries f hf) _ _) hl
      obtain ⟨hprojects, hanswer, hannounced⟩ := hland.batch h.sound (registry ▸ hrefreshes)
      rw [announcements, registry] at hannounced
      rw [hanswer] at hlanded
      exact .landed hlanded hprojects hannounced attached hrefreshes
    | vacant landing => rw [hopen] at landing; cases landing
    | landed landing => rw [hopen] at landing; cases landing

theorem takeOff (hs : s.Sound) : Begun s s.launched s.takeOff := by
  refine ⟨hs.takeOff, by rw [launched_takeOff]; exact Nat.lt_succ_self _,
    fun n answer hn => landing?_after hn .takeOff, fun _ => ?_⟩
  have hopen := hs.ahead s.launched (Nat.le_refl _)
  by_cases hempty : s.registry.isEmpty = true
  · refine .vacant ?_ s.registry_takeOff s.announcements_takeOff (List.isEmpty_iff.1 hempty)
    rw [landing?_takeOff, hopen, if_pos ⟨hempty, rfl⟩, Option.none_or]
  · refine .aloft ?_ s.registry_takeOff s.announcements_takeOff (fun h => hempty (List.isEmpty_iff.2 h)) fun f hf => ?_
    · rw [landing?_takeOff, hopen, if_neg fun h => hempty h.1, Option.none_or]
    · rcases mem_flights_takeOff hf with hf | ⟨-, he⟩
      · exact absurd (hs.ids _ hf) (Nat.lt_irrefl _)
      · obtain ⟨-, rfl⟩ := Prod.mk.inj he
        rfl

theorem launch (hs : s.Sound) : Begun s s.launched s.launch.1 := by
  rw [launch_eq]
  by_cases hempty : s.registry.isEmpty = true
  · rw [if_pos hempty]
    exact takeOff hs
  · rw [if_neg hempty]
    exact (takeOff hs).turn s.launched

theorem advanceTo (h : Begun s₀ id s) (awaited : Option Nat) (limit : Nat) :
    Begun s₀ id (s.advanceTo awaited limit) :=
  advanceTo_induction (fun _ n h => h.turn n) (fun _ time h => h.wait time) awaited limit h

end Begun

/-- The yard at the end of a wait that is bounded by a time, when a refresh that has not landed is not given up yet. -/
def waitedFor (s : Yard) (timeout : Nat) : Yard :=
  s.launch.1.advanceTo (some s.launched) (min (s.launch.1.landingTime s.launched) (s.now + timeout))

/-- What a bounded refresh answers that has landed. -/
def answerOf (committed : List Project) : Except RefreshFailure (List Project) :=
  if committed.all fun p => p.workspace.isNone then .error .noProjects else .ok committed

section

variable {committed : List Project}

theorem answerOf_eq_noProjects_iff : answerOf committed = .error .noProjects ↔ ∀ p ∈ committed, p.workspace = none := by
  simp [answerOf]

theorem answerOf_eq_ok (h : answerOf committed ≠ .error .noProjects) : answerOf committed = .ok committed := by
  unfold answerOf at h ⊢
  split at h
  · exact absurd rfl h
  · next hall => rw [if_neg hall]

theorem answerOf_ne_timedOut (committed : List Project) (timeout : Nat) :
    answerOf committed ≠ .error (.timedOut timeout) := by
  unfold answerOf
  split <;> simp

end

theorem refreshIn_eq (s : Yard) (timeout : Nat) :
    s.refreshIn timeout = match (s.waitedFor timeout).landing? s.launched with
      | none => ((s.waitedFor timeout).abandon s.launched, none)
      | some projects => (s.waitedFor timeout, some projects) := by
  have hlaunch := s.launch_eq
  unfold refreshIn waitedFor
  generalize s.launch = start at hlaunch ⊢
  subst hlaunch
  rfl

/-- A bounded refresh is given up, and then has not landed, or answers what it has committed. -/
theorem refreshWithin_cases (s : Yard) (timeout : Nat) :
    (s.waitedFor timeout).landing? s.launched = none ∧ s.refreshWithin timeout =
        ((s.waitedFor timeout).abandon s.launched, .error (.timedOut timeout)) ∨
      ∃ committed, (s.waitedFor timeout).landing? s.launched = some committed ∧ s.refreshWithin timeout =
        (s.waitedFor timeout, answerOf committed) := by
  rw [refreshWithin, refreshIn_eq]
  cases hlanding : (s.waitedFor timeout).landing? s.launched with
  | none => exact .inl ⟨rfl, rfl⟩
  | some committed => exact .inr ⟨committed, rfl, rfl⟩

theorem begun_waitedFor (hs : s.Sound) (timeout : Nat) : Begun s s.launched (s.waitedFor timeout) :=
  (Begun.launch hs).advanceTo _ _

theorem givenUp_abandon (h : Begun s₀ id s) (hlanding : s.landing? id = none) : GivenUp id (s.abandon id) := by
  refine ⟨h.launched, fun f hf => ?_, hlanding⟩
  have hne := (List.mem_filter.1 hf).2
  simp at hne

theorem landingTime_start (i : Instant) (order : Nat) (snapshot : List Project) :
    (Flight.start i order snapshot).landingTime i.toolchain =
      i.now + max i.toolchain.compiler.delay i.toolchain.sysroot.delay +
        (snapshot.map fun p => (i.toolchain.metadata p.manifest).delay).foldl max 0 := by
  simp only [Flight.start, Flight.landingTime, Flight.waits, Reply.ask, List.map_cons, List.map_nil, List.foldl_cons,
    List.foldl_nil]
  omega

theorem now_takeOff (s : Yard) : s.takeOff.now = s.now := by
  unfold takeOff
  dsimp only
  split <;> rfl

/-- A refresh that has the yard to itself is not given up, if all answers come in time. -/
theorem lt_of_givenUp (hs : s.Sound) (hquiet : s.flights = []) (hne : ¬ s.registry.isEmpty = true) {timeout : Nat}
    (h : (s.waitedFor timeout).landing? s.launched = none) :
    timeout < max s.toolchain.compiler.delay s.toolchain.sysroot.delay +
      (s.registry.projects.map fun p => (s.toolchain.metadata p.manifest).delay).foldl max 0 := by
  have hlaunch : s.launch.1 = s.takeOff.turn s.launched := by
    rw [launch_eq, if_neg hne]
    rfl
  have htakeOff := aloft_takeOff hs hquiet hne
  have hopen : ¬ s.Landed s.launched (s.waitedFor timeout) := fun hlanded => by
    rw [hlanded.landing] at h
    cases h
  rw [waitedFor, hlaunch] at hopen
  rcases htakeOff.turn hs.keys with hlanded | ⟨haloft, hawaits⟩
  · exact absurd (hlanded.advanceTo _ _) hopen
  · set f := ((Flight.start s.instant s.waited s.registry.projects).poll s.takeOff.instant s.takeOff.waited).1
    have htime : (s.takeOff.turn s.launched).landingTime s.launched = f.landingTime s.toolchain := by
      rw [landingTime, haloft.flights, haloft.toolchain, List.lookup_cons_self]
    rcases haloft.advanceTo hs.keys (by rwa [turn_now]) _ _ with hlanded | ⟨hlate, -⟩
    · exact absurd hlanded hopen
    · have hle : f.landingTime s.toolchain ≤
          (Flight.start s.instant s.waited s.registry.projects).landingTime s.toolchain := by
        have hnow : s.takeOff.instant.now ≤ s.now + s.toolchain.compiler.delay := by
          rw [instant, now_takeOff]
          exact Nat.le_add_right _ _
        rw [← htakeOff.toolchain]
        exact Flight.landingTime_poll_le ⟨_, List.mem_cons_self, hnow⟩
      have hstart := landingTime_start s.instant s.waited s.registry.projects
      rw [htime] at hlate
      simp only [instant] at hstart hle
      omega

/-! Where no other refresh is on its way, no other lands. -/

/-- No flight but `id` is on its way or has landed since. -/
structure Solo (s₀ : Yard) (id : Nat) (s : Yard) : Prop where
  flights : ∀ f ∈ s.flights, f.1 = id
  lands : OnlyLands s₀ id s

theorem Solo.turn (h : Solo s₀ id s) (n : Nat) : Solo s₀ id (s.turn n) := by
  rcases turn_cases s n with ⟨-, hsame⟩ | ⟨f, hf, ⟨-, hon⟩ | ⟨projects, -, hland⟩⟩
  · rw [hsame]
    exact h
  · refine ⟨fun g hg => ?_, fun m hm => (hon.landing m).trans (h.lands m hm)⟩
    obtain ⟨g', hg', he⟩ := hon.ids hg
    exact he.symm.trans (h.flights g' hg')
  · obtain rfl : n = id := h.flights _ hf
    refine ⟨fun g hg => h.flights g (hland.flights g hg).1, fun m hm => ?_⟩
    rw [hland.landing, if_neg (Ne.symm hm), Option.or_none]
    exact h.lands m hm

theorem solo_takeOff (hquiet : s.flights = []) : Solo s s.launched s.takeOff := by
  refine ⟨fun f hf => ?_, fun n hne => ?_⟩
  · rcases mem_flights_takeOff hf with hf | ⟨-, rfl⟩
    · rw [hquiet] at hf
      cases hf
    · rfl
  · rw [landing?_takeOff, if_neg fun h => hne h.2.symm, Option.or_none]

theorem onlyLands_of_quiet (hquiet : s.flights = []) (timeout : Nat) :
    OnlyLands s s.launched (s.refreshWithin timeout).1 := by
  have hlaunch : Solo s s.launched s.launch.1 := by
    rw [launch_eq]
    by_cases hempty : s.registry.isEmpty = true
    · rw [if_pos hempty]
      exact solo_takeOff hquiet
    · rw [if_neg hempty]
      exact (solo_takeOff hquiet).turn s.launched
  have hwaited : Solo s s.launched (s.waitedFor timeout) :=
    advanceTo_induction (fun _ n h => h.turn n) (fun _ _ h => ⟨h.flights, h.lands⟩) _ _ hlaunch
  rcases s.refreshWithin_cases timeout with ⟨-, hr⟩ | ⟨committed, -, hr⟩
  · rw [hr]
    exact hwaited.lands
  · rw [hr]
    exact hwaited.lands

/-- A refresh that is waited for no longer than a time, while no other lands. If it is given up, nothing has changed and
nothing was announced, and whatever comes later it does not land and its turns do nothing. If it is not given up, it
has made no change of an empty yard; of any other it has committed one batch, made of what was attached, and announced
once. It answers the batch, unless no project in it has a workspace. With the yard to itself it is not given up if all
answers come in time. -/
theorem refreshWithin_all_or_nothing (tree : FileTree) (tools : Toolchain) (acts : List Act) (timeout : Nat) :
    let s := (Yard.start tree tools).afterAll acts
    let r := s.refreshWithin timeout
    OnlyLands s s.launched r.1 →
    (r.2 = .error (.timedOut timeout) → r.1.registry = s.registry ∧ r.1.announcements = s.announcements ∧
      ∀ later, (r.1.afterAll later).landing? s.launched = none ∧
        (r.1.afterAll later).after (.turn s.launched) = r.1.afterAll later) ∧
    (r.2 ≠ .error (.timedOut timeout) → ∃ committed, r.1.landing? s.launched = some committed ∧
      (s.registry.projects = [] →
        committed = [] ∧ r.1.registry = s.registry ∧ r.1.announcements = s.announcements) ∧
      (s.registry.projects ≠ [] →
        Probe.Refreshes s.registry.projects committed ∧ r.1.registry.projects = committed ∧
          r.1.announcements = s.announcements ++ [s.registry.manifests]) ∧
      (r.2 = .error .noProjects ↔ ∀ p ∈ committed, p.workspace = none) ∧
      (r.2 ≠ .error .noProjects → r.2 = .ok committed)) ∧
    (s.flights = [] → r.2 = .error (.timedOut timeout) →
      timeout < max s.toolchain.compiler.delay s.toolchain.sysroot.delay +
        (s.registry.projects.map fun p => (s.toolchain.metadata p.manifest).delay).foldl max 0) := by
  intro s r honly
  have hs : s.Sound := (Sound.start tree tools).afterAll acts
  have hbegun := begun_waitedFor hs timeout
  rcases s.refreshWithin_cases timeout with ⟨hopen, hr⟩ | ⟨committed, hlanded, hr⟩
  · have hr' : r = ((s.waitedFor timeout).abandon s.launched, .error (.timedOut timeout)) := hr
    rw [hr'] at honly ⊢
    obtain ⟨hregistry, hannouncements, hattached⟩ := (hbegun.stage honly).of_open hopen
    refine ⟨fun _ => ⟨hregistry, hannouncements, fun later => ?_⟩, fun hne => absurd rfl hne, fun hquiet _ => ?_⟩
    · have hgiven := (givenUp_abandon hbegun hopen).afterAll later
      exact ⟨hgiven.landing, turn_of_grounded hgiven.grounded⟩
    · exact lt_of_givenUp hs hquiet (fun h => hattached (List.isEmpty_iff.1 h)) hopen
  · have hr' : r = (s.waitedFor timeout, answerOf committed) := hr
    rw [hr'] at honly ⊢
    obtain ⟨hvacant, hcommitted⟩ := (hbegun.stage honly).of_landed hlanded
    have hinTime : answerOf committed ≠ .error (.timedOut timeout) := answerOf_ne_timedOut committed timeout
    exact ⟨fun h => absurd h hinTime, fun _ => ⟨committed, hlanded, hvacant, hcommitted, answerOf_eq_noProjects_iff,
      answerOf_eq_ok⟩, fun _ h => absurd h hinTime⟩

/-- Seven milliseconds are needed: after five nothing has happened, also when the answer comes, and after seven the
project is committed. -/
theorem refreshWithin_all_or_nothing_seven :
    let a : Path := ⟨"/a/Cargo.toml"⟩
    let s := (Yard.start ⟨[], []⟩ (tools 7 (.ok emptyDocument))).afterAll [.attach a]
    let short := s.refreshWithin 5
    let long := s.refreshWithin 7
    OnlyLands s 0 short.1 ∧ short.2 = .error (.timedOut 5) ∧ short.1.announcements = [[a]] ∧
      ((short.1.afterAll [.wait 2]).after (.turn 0)).registry = s.registry ∧
      OnlyLands s 0 long.1 ∧ long.1.announcements = [[a], [a]] ∧
      ∃ p, long.2 = .ok [p] ∧ long.1.registry.projects = [p] ∧ p.workspace.isSome = true := by
  intro a s short long
  have hshort : OnlyLands s 0 short.1 := onlyLands_of_quiet rfl 5
  have hlong : OnlyLands s 0 long.1 := onlyLands_of_quiet rfl 7
  obtain ⟨hgivenUp, -, -⟩ := refreshWithin_all_or_nothing ⟨[], []⟩ (tools 7 (.ok emptyDocument)) [.attach a] 5 hshort
  obtain ⟨-, hdone, -⟩ := refreshWithin_all_or_nothing ⟨[], []⟩ (tools 7 (.ok emptyDocument)) [.attach a] 7 hlong
  have hannounced : s.announcements = [[a]] := by decide
  have htimedOut : short.2 = .error (.timedOut 5) := by decide +kernel
  have hworkspaces : long.2.toOption.map (List.map fun p => p.workspace.isSome) = some [true] := by decide +kernel
  obtain ⟨hregistry, hquiet, hlater⟩ := hgivenUp htimedOut
  obtain ⟨committed, -, -, hcommitted, hanswer, hok⟩ := hdone (by decide +kernel)
  obtain ⟨-, hprojects, hannounced'⟩ := hcommitted (by decide)
  have hanswered : long.2 = .ok committed := hok (by decide +kernel)
  rw [hanswered] at hworkspaces
  obtain ⟨p, hp, hsome⟩ := List.map_eq_singleton_iff.1 (Option.some_inj.1 hworkspaces)
  refine ⟨hshort, htimedOut, hquiet.trans hannounced, ?_, hlong, ?_, p, ?_, ?_, hsome⟩
  · have hturn : (short.1.afterAll [.wait 2]).after (.turn 0) = short.1.afterAll [.wait 2] := (hlater [.wait 2]).2
    rw [hturn]
    exact hregistry
  · rw [hannounced', hannounced]
    decide
  · rw [hanswered, hp]
  · rw [hprojects, hp]

end Yard

end CrateYard
