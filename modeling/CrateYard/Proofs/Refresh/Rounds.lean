import CrateYard.Proofs.Project.Operations
import CrateYard.Proofs.Refresh.Answers

/-! One refresh after the other. Between two refreshes, and while one is on its way, anything may happen but another
refresh and a commit by somebody else. As long as a project stays attached it has, after each refresh, the workspace and
the omissions of the last load that succeeded; its statuses and what is known about the compiler are those of this
refresh alone, and host data is gone. -/

namespace CrateYard

/-- What a refresh was told about the compiler and about one project, and the files as they were when it looked for the
library sources and when it read the document. -/
structure Survey where
  compiler : Except ToolError Compiler
  sysroot : Except ToolError Path
  document : Except ToolError Metadata
  whenProbed : FileTree
  whenRead : FileTree

namespace Survey

def probe (v : Survey) : Probe :=
  .ofAnswers v.whenProbed v.compiler v.sysroot

/-- The workspace of the manifest, or why there is none. -/
def load (v : Survey) (m : Path) : Except ToolError Workspace :=
  Workspace.ofAnswer v.whenRead m v.document

/-- What a project shows of the last refresh alone. -/
structure ShownBy (v : Survey) (m : Path) (p : Project) : Prop where
  workspaceStatus : p.workspaceStatus = Probe.statusOf (v.load m)
  compiler : p.compiler = v.compiler.toOption
  sysroot : p.sysroot = v.sysroot.toOption
  compilerStatus : p.compilerStatus = Probe.statusOf v.compiler
  libraryStatus : p.libraryStatus = Probe.libraryStatusOf v.whenProbed v.sysroot
  hostData : p.hostData = none

theorem shownBy_refreshed (v : Survey) (m : Path) (old : Project) :
    v.ShownBy m (v.probe.refreshed old (v.load m)) := by
  cases h : v.load m <;> exact ⟨by rw [h]; rfl, rfl, rfl, rfl, rfl, rfl⟩

end Survey

/-- The graph and the omissions of the last load that succeeded. -/
def lastGood (loads : List (Except ToolError Workspace)) : Option Graph × List Omission :=
  match (loads.filterMap Except.toOption).getLast? with
  | some workspace => (some workspace.graph, workspace.omitted)
  | none => (none, [])

theorem lastGood_concat_ok (loads : List (Except ToolError Workspace)) (workspace : Workspace) :
    lastGood (loads ++ [.ok workspace]) = (some workspace.graph, workspace.omitted) := by
  simp [lastGood, Except.toOption]

theorem lastGood_concat_error (loads : List (Except ToolError Workspace)) (e : ToolError) :
    lastGood (loads ++ [.error e]) = lastGood loads := by
  simp [lastGood, Except.toOption]

/-- Nothing is refreshed by it, and nothing committed. -/
def Act.isAside : Act → Bool
  | .takeOff | .commit _ => false
  | _ => true

/-- What happens before a refresh, and from its start to the turn with which it lands. -/
structure Round where
  before : List Act
  during : List Act

namespace Yard

def moments (s : Yard) (acts : List Act) : Set Instant :=
  {i | ∃ n ≤ acts.length, i = (s.afterAll (acts.take n)).instant}

/-- The project of `m` is attached all the time. -/
def Retains (s : Yard) (m : Path) (acts : List Act) : Prop :=
  ∀ n ≤ acts.length, (s.afterAll (acts.take n)).registry.isAttached m = true

instance (s : Yard) (m : Path) (acts : List Act) : Decidable (s.Retains m acts) :=
  inferInstanceAs (Decidable (∀ n ≤ acts.length, (s.afterAll (acts.take n)).registry.isAttached m = true))

def begun (s : Yard) (r : Round) : Yard :=
  (s.afterAll r.before).after .takeOff

def afterRound (s : Yard) (r : Round) : Yard :=
  ((s.begun r).afterAll r.during).after (.turn (s.afterAll r.before).launched)

def afterRounds (s : Yard) (rounds : List Round) : Yard :=
  rounds.foldl afterRound s

/-- A round in which the project of `m` stays attached, and which ends as its only refresh lands. -/
structure Completes (s : Yard) (m : Path) (r : Round) : Prop where
  aside : ∀ x ∈ r.before ++ r.during, x.isAside = true
  before : s.Retains m r.before
  during : (s.begun r).Retains m r.during
  aloft : ((s.begun r).afterAll r.during).landing? (s.afterAll r.before).launched = none
  landed : (s.afterRound r).landing? (s.afterAll r.before).launched ≠ none

def CompletesAll (m : Path) : Yard → List Round → Prop
  | _, [] => True
  | s, r :: rest => s.Completes m r ∧ CompletesAll m (s.afterRound r) rest

/-- What the refresh of a round has been told, and when it has looked: the tools in use at its start have answered about
the compiler; about the project those in use at one moment of the round, which is also that of the first look at the
files; the other look was at a moment of the round too. -/
structure Surveys (s : Yard) (m : Path) (r : Round) (v : Survey) : Prop where
  compiler : v.compiler = (s.afterAll r.before).toolchain.compiler.answer
  sysroot : v.sysroot = (s.afterAll r.before).toolchain.sysroot.answer
  document : ∃ i ∈ (s.begun r).moments r.during,
    v.whenProbed = i.tree ∧ v.document = (i.toolchain.metadata m).answer
  whenRead : ∃ i ∈ (s.begun r).moments r.during, v.whenRead = i.tree

def SurveysAll (m : Path) : Yard → List Round → List Survey → Prop
  | _, [], surveys => surveys = []
  | s, r :: rest, surveys =>
    ∃ v later, surveys = v :: later ∧ s.Surveys m r v ∧ SurveysAll m (s.afterRound r) rest later

variable {s : Yard} {m : Path} {r : Round}

/-! What a flight has been told since it took off. -/

theorem moments_concat (s : Yard) (acts : List Act) (x : Act) : s.moments acts ⊆ s.moments (acts ++ [x]) := by
  rintro i ⟨n, hn, rfl⟩
  refine ⟨n, by rw [List.length_append]; omega, ?_⟩
  rw [List.take_append_of_le_length hn]

theorem instant_mem_moments (s : Yard) (acts : List Act) : (s.afterAll acts).instant ∈ s.moments acts :=
  ⟨acts.length, Nat.le_refl _, by rw [List.take_length]⟩

theorem answered_of_takeOff (hs : s.Sound) (during : List Act) {f : Flight}
    (hf : (s.launched, f) ∈ ((s.after .takeOff).afterAll during).flights) :
    f.Answered ((s.after .takeOff).moments during) s.toolchain s.registry.projects := by
  induction during using List.reverseRecOn generalizing f with
  | nil =>
    rcases mem_flights_takeOff hf with hold | ⟨-, hnew⟩
    · exact absurd (hs.ids _ hold) (Nat.lt_irrefl _)
    · obtain ⟨-, rfl⟩ := Prod.mk.inj hnew
      exact .start s.instant s.waited s.registry.projects
  | append_singleton acts x ih =>
    set t := (s.after .takeOff).afterAll acts with ht
    rw [afterAll_concat] at hf
    have hold : ∀ {g}, (s.launched, g) ∈ t.flights →
        g.Answered ((s.after .takeOff).moments (acts ++ [x])) s.toolchain s.registry.projects :=
      fun hg => (ih hg).mono (moments_concat _ acts x)
    cases x with
    | takeOff =>
      rcases mem_flights_takeOff hf with hf | ⟨-, hnew⟩
      · exact hold hf
      · -- its number has been given before
        obtain ⟨hid, -⟩ := Prod.mk.inj hnew
        have hlt : s.launched < t.launched := by
          have hle := (s.after .takeOff).launched_le acts
          rw [show (s.after .takeOff).launched = s.launched + 1 from s.launched_takeOff] at hle
          exact hle
        exact absurd hid (Nat.ne_of_lt hlt)
    | turn id =>
      rcases turn_cases t id with ⟨-, hsame⟩ | ⟨f₀, hf₀, ⟨-, hon⟩ | ⟨projects, -, hland⟩⟩
      · exact hold (hsame ▸ hf)
      · change (s.launched, f) ∈ (t.turn id).flights at hf
        rw [hon.flights] at hf
        obtain ⟨⟨n, g⟩, hg, he⟩ := List.mem_map.1 hf
        by_cases hid : n = id
        · rw [if_pos hid] at he
          obtain ⟨rfl, rfl⟩ := Prod.mk.inj he
          exact (hold hf₀).poll (moments_concat _ acts _ (instant_mem_moments _ acts)) _
        · rw [if_neg hid] at he
          exact hold (he ▸ hg)
      · exact hold (hland.flights _ hf).1
    | abandon id => exact hold (List.mem_filter.1 hf).1
    | attach manifest | detach manifest | setHostData manifest data | commit projects | wait ms | equip tree tools =>
      exact hold hf

/-! What happens aside. -/

theorem ids_after_aside {x : Act} (hx : x.isAside = true) : ∀ g ∈ (s.after x).flights, ∃ g' ∈ s.flights, g'.1 = g.1 := by
  intro g hg
  cases x with
  | takeOff | commit projects => cases hx
  | turn id =>
    change g ∈ (s.turn id).flights at hg
    rcases turn_cases s id with ⟨-, hsame⟩ | ⟨f, -, ⟨-, hon⟩ | ⟨projects, -, hland⟩⟩
    · exact ⟨g, hsame ▸ hg, rfl⟩
    · exact hon.ids hg
    · exact ⟨g, (hland.flights g hg).1, rfl⟩
  | abandon id => exact ⟨g, (List.mem_filter.1 hg).1, rfl⟩
  | attach manifest | detach manifest | setHostData manifest data | wait ms | equip tree tools => exact ⟨g, hg, rfl⟩

theorem ids_afterAll_aside {acts : List Act} (hacts : ∀ x ∈ acts, x.isAside = true) :
    ∀ g ∈ (s.afterAll acts).flights, ∃ g' ∈ s.flights, g'.1 = g.1 := by
  induction acts generalizing s with
  | nil => exact fun g hg => ⟨g, hg, rfl⟩
  | cons x rest ih =>
    intro g hg
    rw [List.forall_mem_cons] at hacts
    obtain ⟨g', hg', hid⟩ := ih hacts.2 g hg
    obtain ⟨g'', hg'', hid'⟩ := ids_after_aside hacts.1 g' hg'
    exact ⟨g'', hg'', hid'.trans hid⟩

theorem flights_eq_nil_of_aside (hquiet : s.flights = []) {acts : List Act} (hacts : ∀ x ∈ acts, x.isAside = true) :
    (s.afterAll acts).flights = [] := by
  apply List.eq_nil_iff_forall_not_mem.2
  intro g hg
  obtain ⟨g', hg', -⟩ := ids_afterAll_aside hacts g hg
  rw [hquiet] at hg'
  cases hg'

end Yard

/-- The same project, with the same loaded workspace. -/
structure Project.Keeps (p q : Project) : Prop where
  manifest : q.manifest = p.manifest
  workspace : q.workspace = p.workspace
  omitted : q.omitted = p.omitted

theorem Project.Keeps.refl (p : Project) : p.Keeps p :=
  ⟨rfl, rfl, rfl⟩

theorem Project.Keeps.trans {p q r : Project} (h : p.Keeps q) (h' : q.Keeps r) : p.Keeps r :=
  ⟨h'.manifest.trans h.manifest, h'.workspace.trans h.workspace, h'.omitted.trans h.omitted⟩

namespace Yard

variable {s : Yard} {m : Path} {r : Round} {p : Project}

/-- While no refresh is on its way, a project that stays attached keeps its workspace. -/
theorem keeps_after_aside (hquiet : s.flights = []) {x : Act} (hx : x.isAside = true) (hp : s.registry.project? m = some p)
    (hm : (s.after x).registry.isAttached m = true) :
    ∃ q, (s.after x).registry.project? m = some q ∧ p.Keeps q := by
  cases x with
  | takeOff | commit projects => cases hx
  | attach manifest =>
    refine ⟨p, ?_, .refl p⟩
    exact (Registry.project?_attach (Registry.isAttached_of_project? hp) manifest).trans hp
  | detach manifest => exact ⟨p, (Registry.project?_detach hm).trans hp, .refl p⟩
  | setHostData manifest data =>
    refine ⟨_, (s.registry.project?_setHostData_eq m manifest data).trans (congrArg _ hp), ?_⟩
    dsimp only
    split
    · exact ⟨rfl, rfl, rfl⟩
    · exact .refl p
  | turn id =>
    rcases turn_cases s id with ⟨-, hsame⟩ | ⟨f, hf, -⟩
    · exact ⟨p, (congrArg (·.registry.project? m) hsame).trans hp, .refl p⟩
    · rw [hquiet] at hf
      cases hf
  | abandon id | wait ms | equip tree tools => exact ⟨p, hp, .refl p⟩

theorem keeps_afterAll_aside (hquiet : s.flights = []) {acts : List Act} (hacts : ∀ x ∈ acts, x.isAside = true)
    (hp : s.registry.project? m = some p) (hm : s.Retains m acts) :
    ∃ q, (s.afterAll acts).registry.project? m = some q ∧ p.Keeps q := by
  induction acts generalizing s p with
  | nil => exact ⟨p, hp, .refl p⟩
  | cons x rest ih =>
    rw [List.forall_mem_cons] at hacts
    obtain ⟨q, hq, hkeeps⟩ := keeps_after_aside hquiet hacts.1 hp (hm 1 (by simp))
    have hquiet' : (s.afterAll [x]).flights = [] :=
      flights_eq_nil_of_aside hquiet (List.forall_mem_singleton.2 hacts.1)
    obtain ⟨q', hq', hkeeps'⟩ := ih hquiet' hacts.2 hq fun n hn => hm (n + 1) (Nat.succ_le_succ hn)
    exact ⟨q', hq', hkeeps.trans hkeeps'⟩

end Yard

theorem Probe.Brings.exists_of_mem {past : Set Instant} {tools : Toolchain} {snapshot refreshed : List Project}
    (h : Brings past tools snapshot refreshed) {p : Project} (hp : p ∈ snapshot) :
    ∃ asked ∈ past, ∃ read ∈ past,
      (Probe.ofAnswers asked.tree tools.compiler.answer tools.sysroot.answer).refreshed p
        (Workspace.ofAnswer read.tree p.manifest (asked.toolchain.metadata p.manifest).answer) ∈ refreshed := by
  obtain ⟨asked, hasked, h⟩ := h
  refine ⟨asked, hasked, ?_⟩
  induction h with
  | nil => cases hp
  | cons hq _ ih =>
    rcases List.mem_cons.1 hp with rfl | hp
    · obtain ⟨read, hread, rfl⟩ := hq
      exact ⟨read, hread, List.mem_cons_self⟩
    · obtain ⟨read, hread, hmem⟩ := ih hp
      exact ⟨read, hread, List.mem_cons_of_mem _ hmem⟩

namespace Yard

variable {s : Yard} {m : Path} {r : Round} {p : Project}

/-- Between two rounds: no refresh is on its way, and the project has what was loaded last. -/
structure Tended (s : Yard) (m : Path) (loads : List (Except ToolError Workspace)) : Prop where
  sound : s.Sound
  quiet : s.flights = []
  project : ∃ p, s.registry.project? m = some p ∧ p.manifest = m ∧ (p.workspace, p.omitted) = lastGood loads

theorem exists_survey (hs : s.Sound) (hquiet : s.flights = []) (hp : s.registry.project? m = some p)
    (hm : p.manifest = m) (h : s.Completes m r) :
    ∃ v q, s.Surveys m r v ∧ p.Keeps q ∧
      (s.afterRound r).registry.project? m = some (v.probe.refreshed q (v.load m)) := by
  obtain ⟨hbefore, hduring⟩ := List.forall_mem_append.1 h.aside
  set s₁ := s.afterAll r.before with hs₁
  have hsound₁ : s₁.Sound := hs.afterAll r.before
  obtain ⟨q, hq, hkeeps⟩ := keeps_afterAll_aside hquiet hbefore hp h.before
  obtain ⟨hqmem, hqkey⟩ := Registry.of_project? hq
  obtain ⟨f, projects, hf, hl, hlands, -⟩ := lands_of_landed h.aloft h.landed
  have hanswered := answered_of_takeOff hsound₁ r.during hf
  have hbrings := (hanswered.poll (instant_mem_moments _ r.during) _).brings hl
  obtain ⟨asked, hasked, read, hread, hmem⟩ := hbrings.exists_of_mem hqmem
  have hqm : q.manifest = m := hkeeps.manifest.trans hm
  rw [hqm] at hmem
  refine ⟨⟨s₁.toolchain.compiler.answer, s₁.toolchain.sysroot.answer, (asked.toolchain.metadata m).answer,
    asked.tree, read.tree⟩, q, ⟨rfl, rfl, ⟨asked, hasked, rfl, rfl⟩, ⟨read, hread, rfl⟩⟩, hkeeps, ?_⟩
  -- the project that is attached when the refresh lands gives way to this one
  have hnodup : (projects.map Project.key).Nodup := by
    rw [hbrings.refreshes.keys]
    exact hsound₁.keys
  obtain ⟨p₃, hp₃⟩ := Registry.exists_project? (h.during r.during.length (Nat.le_refl _))
  rw [List.take_length] at hp₃
  obtain ⟨-, hkey₃⟩ := Registry.of_project? hp₃
  have hproject := congrArg (·.project? m) hlands.registry
  refine hproject.trans ((Registry.project?_commit _ projects m).trans ?_)
  rw [hp₃, Option.map_some, Project.settle_of_mem hnodup hmem]
  · rfl
  · rw [Project.key, Probe.manifest_refreshed]
    exact hqkey.trans hkey₃.symm

theorem Tended.afterRound {loads : List (Except ToolError Workspace)} (ht : s.Tended m loads) (h : s.Completes m r) :
    ∃ v q, s.Surveys m r v ∧ (s.afterRound r).registry.project? m = some q ∧ v.ShownBy m q ∧
      (s.afterRound r).Tended m (loads ++ [v.load m]) := by
  obtain ⟨p, hp, hm, hgood⟩ := ht.project
  obtain ⟨v, q, hv, hkeeps, hafter⟩ := exists_survey ht.sound ht.quiet hp hm h
  obtain ⟨hbefore, hduring⟩ := List.forall_mem_append.1 h.aside
  refine ⟨v, _, hv, hafter, v.shownBy_refreshed m q, (((ht.sound.afterAll _).after _).afterAll _).after _, ?_,
    _, hafter, ?_, ?_⟩
  · -- the only flight has landed
    apply List.eq_nil_iff_forall_not_mem.2
    intro g hg
    obtain ⟨f, projects, -, -, hlands, -⟩ := lands_of_landed h.aloft h.landed
    obtain ⟨hg, hne⟩ := hlands.flights g hg
    obtain ⟨g', hg', hid⟩ := ids_afterAll_aside hduring g hg
    rcases mem_flights_takeOff hg' with hold | ⟨-, rfl⟩
    · rw [flights_eq_nil_of_aside ht.quiet hbefore] at hold
      cases hold
    · exact hne hid.symm
  · rw [Probe.manifest_refreshed, hkeeps.manifest, hm]
  · cases hload : v.load m with
    | ok workspace => rw [lastGood_concat_ok]; rfl
    | error e =>
      rw [lastGood_concat_error, ← hgood, ← hkeeps.workspace, ← hkeeps.omitted]
      rfl

theorem Tended.afterRounds {loads : List (Except ToolError Workspace)} (ht : s.Tended m loads) {rounds : List Round}
    (h : CompletesAll m s rounds) :
    ∃ surveys, SurveysAll m s rounds surveys ∧ (s.afterRounds rounds).Tended m (loads ++ surveys.map (·.load m)) ∧
      ∀ v ∈ surveys.getLast?, ∃ p, (s.afterRounds rounds).registry.project? m = some p ∧ v.ShownBy m p := by
  induction rounds generalizing s loads with
  | nil => exact ⟨[], rfl, by rwa [List.map_nil, List.append_nil], by simp⟩
  | cons r rest ih =>
    obtain ⟨v, p, hv, hp, hshown, ht'⟩ := ht.afterRound h.1
    obtain ⟨later, hlater, htended, hlast⟩ := ih ht' h.2
    refine ⟨v :: later, ⟨v, later, rfl, hv, hlater⟩, by simpa [Yard.afterRounds] using htended, fun w hw => ?_⟩
    cases rest with
    | nil =>
      obtain rfl : later = [] := hlater
      obtain rfl : v = w := by simpa using hw
      exact ⟨p, hp, hshown⟩
    | cons r' rest =>
      obtain ⟨v', later', rfl, -⟩ := hlater
      exact hlast w (by simpa using hw)

/-- A project is attached while no refresh is on its way, and stays attached. Refreshes follow, one after the other and
at least one. After the last of them, the project has the graph and the omissions of the last load that succeeded, or
none if none has; what else it shows is what the last refresh was told. -/
theorem lastGood_of_rounds {tree : FileTree} {tools : Toolchain} {acts : List Act} {m : Path} {rounds : List Round}
    (hquiet : ((Yard.start tree tools).afterAll acts).flights = [])
    (hnew : ((Yard.start tree tools).afterAll acts).registry.isAttached m = false) (hne : rounds ≠ []) :
    let s := ((Yard.start tree tools).afterAll acts).after (.attach m)
    CompletesAll m s rounds → ∃ surveys v p, SurveysAll m s rounds (surveys ++ [v]) ∧
      (s.afterRounds rounds).registry.project? m = some p ∧
      (p.workspace, p.omitted) = lastGood ((surveys ++ [v]).map (·.load m)) ∧ v.ShownBy m p := by
  intro s h
  have hattached : s.registry.project? m = some (.new m) := by
    have hnone : ((Yard.start tree tools).afterAll acts).registry.project? m = none :=
      Registry.project?_eq_none_iff.2 fun hm => by simp [Registry.isAttached_iff.2 hm] at hnew
    exact (Registry.project?_attach_self _ m).trans (by rw [hnone]; rfl)
  have ht : s.Tended m [] := ⟨((Sound.start tree tools).afterAll acts).after _, hquiet, .new m, hattached, rfl, rfl⟩
  obtain ⟨surveys, hsurveys, htended, hlast⟩ := ht.afterRounds h
  rcases List.eq_nil_or_concat surveys with rfl | ⟨earlier, v, rfl⟩
  · cases rounds with
    | nil => exact absurd rfl hne
    | cons r rest =>
      obtain ⟨v, later, he, -⟩ := hsurveys
      cases he
  · obtain ⟨p, hp, hshown⟩ := hlast v (by simp)
    obtain ⟨p', hp', -, hgood⟩ := htended.project
    obtain rfl : p = p' := Option.some_inj.1 (hp.symm.trans hp')
    exact ⟨earlier, v, p, by simpa using hsurveys, hp, by simpa using hgood, hshown⟩

/-- A load that succeeds, and one that fails while the host is busy with the project. -/
def goodThenBad (m : Path) : List Round :=
  [⟨[], []⟩,
    ⟨[.setHostData m "before", .equip ⟨[], []⟩ (tools 5 (.error (.unreadable "cargo" "")))],
      [.turn 1, .setHostData m "during", .wait 5]⟩]

/-- The workspace of the first refresh is there after the second, with the status of the second; host data is not. -/
theorem lastGood_of_rounds_failed :
    let m : Path := ⟨"/app/Cargo.toml"⟩
    let s := (Yard.start ⟨[], []⟩ (tools 0 (.ok emptyDocument))).after (.attach m)
    CompletesAll m s (goodThenBad m) ∧ ∃ surveys v p, SurveysAll m s (goodThenBad m) (surveys ++ [v]) ∧
      (s.afterRounds (goodThenBad m)).registry.project? m = some p ∧
      (p.workspace, p.omitted) = lastGood ((surveys ++ [v]).map (·.load m)) ∧ v.ShownBy m p ∧
      p.workspace.isSome = true ∧ p.workspaceStatus = .failed (ToolError.unreadable "cargo" "").message := by
  intro m s
  have hquiet : ((Yard.start ⟨[], []⟩ (tools 0 (.ok emptyDocument))).afterAll []).flights = [] := rfl
  have hcompletes : CompletesAll m s (goodThenBad m) := by
    refine ⟨⟨?_, ?_, ?_, ?_, ?_⟩, ⟨?_, ?_, ?_, ?_, ?_⟩, trivial⟩ <;> decide
  obtain ⟨surveys, v, p, hsurveys, hp, hgood, hshown⟩ :=
    lastGood_of_rounds hquiet (by decide) (by decide) hcompletes
  have hfacts : ((s.afterRounds (goodThenBad m)).registry.project? m).map
      (fun p => (p.workspace.isSome, p.workspaceStatus)) =
        some (true, .failed (ToolError.unreadable "cargo" "").message) := by
    decide
  have hpfacts : (p.workspace.isSome, p.workspaceStatus) = (true, .failed (ToolError.unreadable "cargo" "").message) :=
    Option.some_inj.1 ((congrArg _ hp).symm.trans hfacts)
  obtain ⟨hworkspace, hstatus⟩ := Prod.mk.inj hpfacts
  exact ⟨hcompletes, surveys, v, p, hsurveys, hp, hgood, hshown, hworkspace, hstatus⟩

end Yard

end CrateYard
