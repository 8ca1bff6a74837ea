import CrateYard.Proofs.Refresh.Acts
import Mathlib.Data.List.Induction
import Mathlib.Order.Basic

/-! A flight carries its snapshot: whatever happens while it is on its way, it lands with one project for each of the
snapshot, in order, made of that project and of what was loaded for it. Every flight on its way has taken off once, and
not landed yet. -/

namespace CrateYard

/-- A project of a flight is the one of the snapshot, or has been made of it. -/
def Loading.Of (probe : Probe) (p : Project) : Loading → Prop
  | .waiting old _ => old = p
  | .loaded q => ∃ loaded, q = probe.refreshed p loaded

def Flight.Carries (snapshot : List Project) : Flight → Prop
  | .probing projects _ _ => projects = snapshot
  | .loading probe projects => List.Forall₂ (Loading.Of probe) snapshot projects

/-- The projects of a refresh, one for each of the snapshot. -/
def Probe.Refreshes (snapshot refreshed : List Project) : Prop :=
  ∃ probe : Probe, List.Forall₂ (fun p q => ∃ loaded, q = probe.refreshed p loaded) snapshot refreshed

theorem Probe.manifest_refreshed (probe : Probe) (p : Project) (loaded : Except ToolError Workspace) :
    (probe.refreshed p loaded).manifest = p.manifest := by
  cases loaded <;> rfl

namespace Probe.Refreshes

variable {snapshot refreshed : List Project}

theorem manifests (h : Refreshes snapshot refreshed) :
    refreshed.map Project.manifest = snapshot.map Project.manifest := by
  obtain ⟨probe, h⟩ := h
  induction h with
  | nil => rfl
  | cons hq _ ih =>
    obtain ⟨loaded, rfl⟩ := hq
    rw [List.map_cons, List.map_cons, ih, probe.manifest_refreshed]

theorem keys (h : Refreshes snapshot refreshed) : refreshed.map Project.key = snapshot.map Project.key := by
  have hkey : Project.key = Path.components ∘ Project.manifest := rfl
  rw [hkey, ← List.map_map, ← List.map_map, h.manifests]

theorem exists_of_mem (h : Refreshes snapshot refreshed) {q : Project} (hq : q ∈ refreshed) :
    ∃ p ∈ snapshot, p.key = q.key ∧ ∃ (probe : Probe) (loaded : Except ToolError Workspace),
      q = probe.refreshed p loaded := by
  obtain ⟨probe, h⟩ := h
  induction h with
  | nil => cases hq
  | @cons p q' snapshot refreshed hpq _ ih =>
    rcases List.mem_cons.1 hq with rfl | hq
    · obtain ⟨loaded, rfl⟩ := hpq
      exact ⟨p, List.mem_cons_self, by rw [Project.key, Project.key, probe.manifest_refreshed], probe, loaded, rfl⟩
    · obtain ⟨p', hp', hk⟩ := ih hq
      exact ⟨p', List.mem_cons_of_mem _ hp', hk⟩

end Probe.Refreshes

/-- A poll takes the answer that a project waits for, if it has come, and else leaves it waiting. -/
theorem Loading.poll_cases (i : Instant) (probe : Probe) (l : Loading) :
    l.poll i probe = l ∧ (∀ w ∈ l.wait?, i.now < w.1) ∨
      ∃ old answer, l = .waiting old answer ∧ answer.due ≤ i.now ∧
        l.poll i probe = .loaded (probe.refreshed old (Workspace.ofAnswer i.tree old.manifest answer.value)) := by
  cases l with
  | waiting old answer =>
    by_cases hdue : answer.due ≤ i.now
    · exact .inr ⟨old, answer, rfl, hdue, if_pos hdue⟩
    · refine .inl ⟨if_neg hdue, fun w hw => ?_⟩
      obtain rfl : (answer.due, answer.order) = w := Option.some_inj.1 hw
      exact Nat.lt_of_not_le hdue
  | loaded p => exact .inl ⟨rfl, fun w hw => by cases hw⟩

namespace Flight

theorem of_poll (i : Instant) {probe : Probe} {p : Project} {l : Loading} (h : l.Of probe p) :
    (l.poll i probe).Of probe p := by
  rcases l.poll_cases i probe with ⟨hsame, -⟩ | ⟨old, answer, rfl, -, hloaded⟩
  · rwa [hsame]
  · obtain rfl : old = p := h
    rw [hloaded]
    exact ⟨_, rfl⟩

theorem carries_depart (i : Instant) (probe : Probe) (order : Nat) (snapshot : List Project) :
    List.Forall₂ (Loading.Of probe) snapshot (depart i order snapshot) := by
  induction snapshot generalizing order with
  | nil => exact .nil
  | cons p rest ih => exact .cons rfl (ih (order + 1))

theorem carries_map_poll (i : Instant) {probe : Probe} {snapshot : List Project} {projects : List Loading}
    (h : List.Forall₂ (Loading.Of probe) snapshot projects) :
    List.Forall₂ (Loading.Of probe) snapshot (projects.map (Loading.poll i probe)) :=
  List.forall₂_map_right_iff.2 (h.imp fun _ _ => of_poll i)

theorem carries_poll {f : Flight} {snapshot : List Project} (h : f.Carries snapshot) (i : Instant) (order : Nat) :
    (f.poll i order).1.Carries snapshot := by
  cases f with
  | probing projects compiler sysroot =>
    obtain rfl : projects = snapshot := h
    by_cases hdue : compiler.due ≤ i.now ∧ sysroot.due ≤ i.now
    · rw [poll, if_pos hdue]
      exact carries_map_poll i (carries_depart i _ order projects)
    · rw [poll, if_neg hdue]
      rfl
  | loading probe projects => exact carries_map_poll i h

theorem loadings_of_landed {probe : Probe} {loadings : List Loading} {projects : List Project}
    (h : (Flight.loading probe loadings).landed? = some projects) : loadings = projects.map .loaded := by
  change loadings.mapM Loading.project? = some projects at h
  induction loadings generalizing projects with
  | nil =>
    obtain rfl : [] = projects := Option.some_inj.1 h
    rfl
  | cons l rest ih =>
    rw [List.mapM_cons] at h
    obtain ⟨q, hq, h⟩ := Option.bind_eq_some_iff.1 h
    obtain ⟨projects', hrest, h⟩ := Option.bind_eq_some_iff.1 h
    obtain rfl : q :: projects' = projects := Option.some_inj.1 h
    cases l with
    | waiting old answer => cases hq
    | loaded q' =>
      obtain rfl : q' = q := Option.some_inj.1 hq
      rw [ih hrest]
      rfl

/-- A flight lands with the projects of its snapshot, refreshed. -/
theorem refreshes_of_landed {f : Flight} {snapshot projects : List Project} (h : f.Carries snapshot)
    (hl : f.landed? = some projects) : Probe.Refreshes snapshot projects := by
  cases f with
  | probing projects compiler sysroot => cases hl
  | loading probe loadings =>
    obtain rfl := loadings_of_landed hl
    exact ⟨probe, List.forall₂_map_right_iff.1 h⟩

end Flight

namespace Yard

structure Sound (s : Yard) : Prop where
  keys : s.registry.keys.Nodup
  ids : ∀ f ∈ s.flights, f.1 < s.launched
  aloft : ∀ f ∈ s.flights, s.landing? f.1 = none
  ahead : ∀ id, s.launched ≤ id → s.landing? id = none

namespace Sound

variable {s : Yard}

theorem start (tree : FileTree) (toolchain : Toolchain) : (Yard.start tree toolchain).Sound := by
  refine ⟨List.nodup_nil, fun f hf => ?_, fun f hf => ?_, fun _ _ => rfl⟩ <;> cases hf

theorem apply {α : Type} (h : s.Sound) {c : Registry.Change α} (hc : c.registry.keys.Nodup) : (s.apply c).Sound :=
  ⟨hc, h.ids, fun f hf => (s.landing?_apply c _).trans (h.aloft f hf),
    fun id hid => (s.landing?_apply c id).trans (h.ahead id hid)⟩

theorem takeOff (h : s.Sound) : s.takeOff.Sound := by
  refine ⟨?_, fun f hf => ?_, fun f hf => ?_, fun id hid => ?_⟩
  · rw [registry_takeOff]
    exact h.keys
  · rw [launched_takeOff]
    rcases mem_flights_takeOff hf with hf | ⟨-, rfl⟩
    · exact Nat.lt_succ_of_lt (h.ids f hf)
    · exact Nat.lt_succ_self s.launched
  · rw [landing?_takeOff]
    rcases mem_flights_takeOff hf with hf | ⟨hempty, rfl⟩
    · have hne : s.launched ≠ f.1 := Nat.ne_of_gt (h.ids f hf)
      rw [if_neg fun he => hne he.2, Option.or_none]
      exact h.aloft f hf
    · rw [if_neg fun he => hempty he.1, Option.or_none]
      exact h.ahead s.launched (Nat.le_refl _)
  · rw [launched_takeOff] at hid
    have hne : s.launched ≠ id := Nat.ne_of_lt hid
    rw [landing?_takeOff, if_neg fun he => hne he.2, Option.or_none]
    exact h.ahead id (Nat.le_of_succ_le hid)

theorem turn (h : s.Sound) (id : Nat) : (s.turn id).Sound := by
  rcases turn_cases s id with ⟨-, hsame⟩ | ⟨f, hf, ⟨-, hon⟩ | ⟨projects, -, hland⟩⟩
  · rw [hsame]
    exact h
  · refine ⟨by rw [hon.registry]; exact h.keys, fun g hg => ?_, fun g hg => ?_, fun n hn => ?_⟩
    · obtain ⟨g', hg', he⟩ := hon.ids hg
      rw [hon.launched, ← he]
      exact h.ids g' hg'
    · obtain ⟨g', hg', he⟩ := hon.ids hg
      rw [hon.landing, ← he]
      exact h.aloft g' hg'
    · rw [hon.launched] at hn
      exact (hon.landing n).trans (h.ahead n hn)
  · refine ⟨?_, fun g hg => ?_, fun g hg => ?_, fun n hn => ?_⟩
    · rw [hland.registry, Registry.keys_commit]
      exact h.keys
    · rw [hland.launched]
      exact h.ids g (hland.flights g hg).1
    · obtain ⟨hmem, hne⟩ := hland.flights g hg
      rw [hland.landing, h.aloft g hmem, if_neg (Ne.symm hne)]
      rfl
    · rw [hland.launched] at hn
      have hlt : id < s.launched := h.ids _ hf
      rw [hland.landing, h.ahead n hn, if_neg (by omega)]
      rfl

theorem after (h : s.Sound) (x : Act) : (s.after x).Sound := by
  cases x with
  | attach manifest => exact h.apply (Registry.nodup_keys_attach h.keys manifest)
  | detach manifest => exact h.apply (Registry.nodup_keys_detach h.keys manifest)
  | setHostData manifest data => exact h.apply (by rw [Registry.keys_setHostData]; exact h.keys)
  | commit projects => exact h.apply (by rw [Registry.keys_commit]; exact h.keys)
  | takeOff => exact h.takeOff
  | turn id => exact h.turn id
  | abandon id =>
    exact ⟨h.keys, fun f hf => h.ids f (List.mem_filter.1 hf).1, fun f hf => h.aloft f (List.mem_filter.1 hf).1, h.ahead⟩
  | wait ms | equip tree toolchain => exact ⟨h.keys, h.ids, h.aloft, h.ahead⟩

theorem afterAll (h : s.Sound) (acts : List Act) : (s.afterAll acts).Sound := by
  induction acts generalizing s with
  | nil => exact h
  | cons x rest ih => exact ih (h.after x)

end Sound

theorem launched_le_after (s : Yard) (x : Act) : s.launched ≤ (s.after x).launched := by
  cases x with
  | takeOff =>
    change s.launched ≤ s.takeOff.launched
    rw [launched_takeOff]
    exact Nat.le_succ _
  | turn id => exact Nat.le_of_eq (s.launched_turn id).symm
  | _ => exact Nat.le_refl _

theorem launched_le (s : Yard) (acts : List Act) : s.launched ≤ (s.afterAll acts).launched := by
  induction acts generalizing s with
  | nil => exact Nat.le_refl _
  | cons x rest ih => exact Nat.le_trans (s.launched_le_after x) (ih (s.after x))

theorem takeOff_unique {s : Yard} {pre post pre' post' : List Act} (h : pre ++ .takeOff :: post = pre' ++ .takeOff :: post')
    (hid : (s.afterAll pre).launched = (s.afterAll pre').launched) : pre = pre' := by
  have hmore : ∀ before more, (s.afterAll before).launched < (s.afterAll (before ++ .takeOff :: more)).launched := by
    intro before more
    rw [afterAll_append]
    have hstep := launched_takeOff (s.afterAll before)
    have hle : (s.afterAll before).takeOff.launched ≤ ((s.afterAll before).takeOff.afterAll more).launched :=
      launched_le _ more
    change _ < ((s.afterAll before).takeOff.afterAll more).launched
    omega
  rcases List.append_eq_append_iff.1 h with ⟨a, rfl, ha⟩ | ⟨a, rfl, ha⟩
  · cases a with
    | nil => exact (List.append_nil pre).symm
    | cons x rest =>
      obtain ⟨rfl, -⟩ := List.cons.inj ha
      have hlt := hmore pre rest
      omega
  · cases a with
    | nil => exact List.append_nil pre'
    | cons x rest =>
      obtain ⟨rfl, -⟩ := List.cons.inj ha
      have hlt := hmore pre' rest
      omega

/-- Every flight on its way has taken off, and carries what was attached then. -/
theorem exists_takeOff (s : Yard) (hs : s.flights = []) (acts : List Act) {f : Nat × Flight}
    (hf : f ∈ (s.afterAll acts).flights) :
    ∃ pre post, acts = pre ++ .takeOff :: post ∧ (s.afterAll pre).launched = f.1 ∧
      f.2.Carries (s.afterAll pre).registry.projects := by
  induction acts using List.reverseRecOn generalizing f with
  | nil =>
    rw [show (s.afterAll []).flights = s.flights from rfl, hs] at hf
    cases hf
  | append_singleton acts x ih =>
    rw [afterAll_concat] at hf
    -- a flight that was there before
    have hold : ∀ g ∈ (s.afterAll acts).flights, ∃ pre post, acts ++ [x] = pre ++ .takeOff :: post ∧
        (s.afterAll pre).launched = g.1 ∧ g.2.Carries (s.afterAll pre).registry.projects := by
      intro g hg
      obtain ⟨pre, post, rfl, hid, hcarries⟩ := ih hg
      exact ⟨pre, post ++ [x], by simp, hid, hcarries⟩
    cases x with
    | takeOff =>
      rcases mem_flights_takeOff hf with hf | ⟨-, rfl⟩
      · exact hold f hf
      · exact ⟨acts, [], rfl, rfl, rfl⟩
    | turn id =>
      change f ∈ ((s.afterAll acts).turn id).flights at hf
      rcases turn_cases (s.afterAll acts) id with ⟨-, hsame⟩ | ⟨f₀, hf₀, ⟨-, hon⟩ | ⟨projects, -, hland⟩⟩
      · rw [hsame] at hf
        exact hold f hf
      · rw [hon.flights] at hf
        obtain ⟨g, hg, rfl⟩ := List.mem_map.1 hf
        split
        · obtain ⟨pre, post, he, hid, hcarries⟩ := hold _ hf₀
          exact ⟨pre, post, he, hid, Flight.carries_poll hcarries _ _⟩
        · exact hold g hg
      · exact hold f (hland.flights f hf).1
    | abandon id => exact hold f (List.mem_filter.1 hf).1
    | attach manifest | detach manifest | setHostData manifest data | commit projects | wait ms | equip tree toolchain =>
      exact hold f hf

end Yard

end CrateYard
