import CrateYard.Proofs.Refresh.Registry
import CrateYard.Refresh.Yard

/-! Everything that can happen to a yard, in any order. A refresh takes off with a snapshot of what is attached, and
from then on has its turns; what comes between two of them is free: projects are attached and detached, other refreshes
take off and land, the tools and the files change. The courses include all that the clock of a yard brings about. -/

namespace CrateYard

inductive Act where
  | attach (manifest : Path)
  | detach (manifest : Path)
  | setHostData (manifest : Path) (data : String)
  /-- Somebody else commits projects. -/
  | commit (projects : List Project)
  | takeOff
  | turn (id : Nat)
  | abandon (id : Nat)
  | wait (ms : Nat)
  | equip (tree : FileTree) (toolchain : Toolchain)

def Notice.announced? : Notice → Option Registry.Announcement
  | .announced manifests => some manifests
  | _ => none

/-- The projects that a flight has landed with. -/
def Notice.landing? (id : Nat) : Notice → Option (List Project)
  | .landed flight _ projects => if flight = id then some projects else none
  | _ => none

namespace Yard

/-- A refresh begins: it has its snapshot, and has asked its first two questions. -/
def takeOff (s : Yard) : Yard :=
  let begun : Yard := { s with launched := s.launched + 1 }
  if s.registry.isEmpty then begun.notify [.landed s.launched s.now []]
  else
    let flight := Flight.start s.instant s.waited s.registry.projects
    let aloft : Yard := { begun with flights := s.flights ++ [(s.launched, flight)], waited := s.waited + 2 }
    aloft.notify [.called .compiler, .called .sysroot]

def after (s : Yard) : Act → Yard
  | .attach manifest => s.apply (s.registry.attach manifest)
  | .detach manifest => (s.detach manifest).1
  | .setHostData manifest data => (s.setHostData manifest data).1
  | .commit projects => s.apply (s.registry.commit projects)
  | .takeOff => s.takeOff
  | .turn id => s.turn id
  | .abandon id => s.abandon id
  | .wait ms => { s with now := s.now + ms }
  | .equip tree toolchain => { s with tree := tree, toolchain := toolchain }

def afterAll (s : Yard) (acts : List Act) : Yard :=
  acts.foldl after s

def announcements (s : Yard) : List Registry.Announcement :=
  s.notices.filterMap Notice.announced?

variable {s : Yard} {id : Nat}

theorem afterAll_append (s : Yard) (acts more : List Act) : s.afterAll (acts ++ more) = (s.afterAll acts).afterAll more :=
  List.foldl_append

theorem afterAll_concat (s : Yard) (acts : List Act) (x : Act) : s.afterAll (acts ++ [x]) = (s.afterAll acts).after x := by
  rw [afterAll_append]
  rfl

theorem announcements_notify (s : Yard) (notices : List Notice) :
    (s.notify notices).announcements = s.announcements ++ notices.filterMap Notice.announced? := by
  simp [announcements, notify]

theorem landing?_notify (s : Yard) (notices : List Notice) (n : Nat) :
    (s.notify notices).landing? n = (s.landing? n).or (notices.findSome? (Notice.landing? n)) :=
  List.findSome?_append

theorem landing?_apply {α : Type} (s : Yard) (c : Registry.Change α) (n : Nat) :
    (s.apply c).landing? n = s.landing? n := by
  have hnone : (c.announced.map Notice.announced).findSome? (Notice.landing? n) = none := by
    simp [List.findSome?_eq_none_iff, Notice.landing?]
  rw [apply, landing?_notify, hnone, Option.or_none]
  rfl

theorem landing?_calls (s : Yard) (calls : List Call) (n : Nat) :
    (s.notify (calls.map .called)).landing? n = s.landing? n := by
  have hnone : (calls.map Notice.called).findSome? (Notice.landing? n) = none := by
    simp [List.findSome?_eq_none_iff, Notice.landing?]
  rw [landing?_notify, hnone, Option.or_none]

theorem announcements_calls (s : Yard) (calls : List Call) :
    (s.notify (calls.map .called)).announcements = s.announcements := by
  rw [announcements_notify]
  simp [Notice.announced?, Function.comp_def]

/-! The clock of a yard makes acts. -/

theorem launch_eq (s : Yard) :
    s.launch = (s.afterAll (if s.registry.isEmpty then [.takeOff] else [.takeOff, .turn s.launched]), s.launched) := by
  unfold launch afterAll
  dsimp only
  by_cases h : s.registry.isEmpty = true
  · rw [if_pos h, if_pos h]
    simp [after, takeOff, h]
  · rw [if_neg h, if_neg h]
    simp [after, takeOff, h]
    rfl

theorem foldl_turn_eq (ids : List Nat) (s : Yard) : ids.foldl turn s = s.afterAll (ids.map .turn) := by
  induction ids generalizing s with
  | nil => rfl
  | cons id rest ih => exact ih (s.turn id)

/-- However far the clock goes, it makes acts. -/
theorem exists_acts_advanceTo (awaited : Option Nat) (limit : Nat) (s : Yard) :
    ∃ acts, s.advanceTo awaited limit = s.afterAll acts := by
  have hrest : ∀ s : Yard, ({ s with now := max s.now limit } : Yard) = s.afterAll [.wait (limit - s.now)] := by
    intro s
    have hnow : max s.now limit = s.now + (limit - s.now) := by omega
    rw [hnow]
    rfl
  fun_induction advanceTo awaited limit s with
  | case1 s time hdue hlt ih =>
    obtain ⟨acts, ih⟩ := ih
    have hwake : s.wake awaited time = s.afterAll
        (.wait (time - s.now) :: (ready { s with now := time } awaited).map .turn) := by
      have hnow : time = s.now + (time - s.now) := by omega
      rw [wake, foldl_turn_eq]
      exact congrArg (fun t => ({ s with now := t } : Yard).afterAll _) hnow
    exact ⟨_ ++ acts, by rw [afterAll_append, ← hwake, ih]⟩
  | case2 s time hdue hlt => exact ⟨_, hrest s⟩
  | case3 s hdue => exact ⟨_, hrest s⟩

/-- A refresh that is waited for is a start, and acts. -/
theorem exists_acts_refresh (s : Yard) : ∃ acts, s.refresh.1 = s.afterAll (.takeOff :: acts) := by
  unfold refresh
  rw [launch_eq]
  dsimp only
  split
  · obtain ⟨acts, h⟩ := exists_acts_advanceTo (some s.launched)
      ((s.afterAll [.takeOff]).landingTime s.launched) (s.afterAll [.takeOff])
    exact ⟨acts, h⟩
  · obtain ⟨acts, h⟩ := exists_acts_advanceTo (some s.launched)
      ((s.afterAll [.takeOff, .turn s.launched]).landingTime s.launched) (s.afterAll [.takeOff, .turn s.launched])
    exact ⟨.turn s.launched :: acts, h⟩

/-! What a start does. -/

theorem registry_takeOff (s : Yard) : s.takeOff.registry = s.registry := by
  unfold takeOff
  dsimp only
  split <;> rfl

theorem launched_takeOff (s : Yard) : s.takeOff.launched = s.launched + 1 := by
  unfold takeOff
  dsimp only
  split <;> rfl

theorem announcements_takeOff (s : Yard) : s.takeOff.announcements = s.announcements := by
  unfold takeOff
  dsimp only
  split
  · rw [announcements_notify]
    exact List.append_nil _
  · exact announcements_calls _ [.compiler, .sysroot]

theorem landing?_takeOff (s : Yard) (n : Nat) : s.takeOff.landing? n =
    (s.landing? n).or (if s.registry.isEmpty = true ∧ s.launched = n then some [] else none) := by
  unfold takeOff
  dsimp only
  split
  · next hempty =>
    rw [landing?_notify]
    by_cases hn : s.launched = n <;> simp [Notice.landing?, landing?, hempty, hn]
  · next hempty =>
    rw [if_neg fun h => hempty h.1, Option.or_none]
    exact landing?_calls _ [.compiler, .sysroot] n

theorem mem_flights_takeOff {f : Nat × Flight} (hf : f ∈ s.takeOff.flights) :
    f ∈ s.flights ∨
      ¬ s.registry.isEmpty = true ∧ f = (s.launched, Flight.start s.instant s.waited s.registry.projects) := by
  unfold takeOff at hf
  dsimp only at hf
  split at hf
  · exact .inl hf
  · next hempty =>
    rcases List.mem_append.1 hf with hf | hf
    · exact .inl hf
    · exact .inr ⟨hempty, List.mem_singleton.1 hf⟩

/-! What a turn does. -/

structure FliesOn (s : Yard) (id : Nat) (f : Flight) (s' : Yard) : Prop where
  registry : s'.registry = s.registry
  announcements : s'.announcements = s.announcements
  landing : ∀ n, s'.landing? n = s.landing? n
  launched : s'.launched = s.launched
  flights : s'.flights = s.flights.map fun g => if g.1 = id then (id, f) else g

theorem FliesOn.ids {s' : Yard} {f : Flight} (h : FliesOn s id f s') {g : Nat × Flight} (hg : g ∈ s'.flights) :
    ∃ g' ∈ s.flights, g'.1 = g.1 := by
  rw [h.flights] at hg
  obtain ⟨g', hg', rfl⟩ := List.mem_map.1 hg
  refine ⟨g', hg', ?_⟩
  split
  · next he => exact he
  · rfl

structure Lands (s : Yard) (id : Nat) (projects : List Project) (s' : Yard) : Prop where
  registry : s'.registry = (s.registry.commit projects).registry
  announcements : s'.announcements = s.announcements ++ [s'.registry.manifests]
  landing : ∀ n, s'.landing? n =
    (s.landing? n).or (if id = n then some (s.registry.commit projects).answer else none)
  launched : s'.launched = s.launched
  flights : ∀ g ∈ s'.flights, g ∈ s.flights ∧ g.1 ≠ id

theorem lands_land (s : Yard) (id : Nat) (projects : List Project) : Lands s id projects (s.land id projects) := by
  refine ⟨rfl, ?_, fun n => ?_, rfl, fun g hg => ?_⟩
  · change ((Yard.apply { s with flights := _ } (s.registry.commit projects)).notify _).announcements = _
    rw [announcements_notify, apply, announcements_notify]
    simp only [List.filterMap_cons, List.filterMap_nil, Notice.announced?, List.append_nil]
    rfl
  · unfold land apply
    rw [landing?_notify, landing?_notify]
    simp [Registry.commit, Registry.announcing, landing?, Notice.landing?]
  · have hg' : g ∈ s.flights.filter fun f => f.1 ≠ id := hg
    simpa using List.mem_filter.1 hg'

/-- What was asked on the way does not show in a landing. -/
theorem Lands.of_fliesOn {s' s'' : Yard} {f : Flight} {projects : List Project} (h : FliesOn s id f s')
    (h' : Lands s' id projects s'') : Lands s id projects s'' := by
  refine ⟨by rw [h'.registry, h.registry], by rw [h'.announcements, h.announcements], fun n => ?_,
    h'.launched.trans h.launched, fun g hg => ?_⟩
  · rw [h'.landing, h.landing, h.registry]
  · obtain ⟨hmem, hne⟩ := h'.flights g hg
    rw [h.flights] at hmem
    obtain ⟨g', hg', rfl⟩ := List.mem_map.1 hmem
    by_cases hid : g'.1 = id
    · rw [if_pos hid] at hne
      exact absurd rfl hne
    · rw [if_neg hid]
      exact ⟨hg', hid⟩

/-- A flight that is not on its way has no turn; any other stays on its way or lands. -/
theorem turn_cases (s : Yard) (id : Nat) :
    (∀ f, (id, f) ∉ s.flights) ∧ s.turn id = s ∨
      ∃ f, (id, f) ∈ s.flights ∧
        ((f.poll s.instant s.waited).1.landed? = none ∧ FliesOn s id (f.poll s.instant s.waited).1 (s.turn id) ∨
          ∃ projects, (f.poll s.instant s.waited).1.landed? = some projects ∧ Lands s id projects (s.turn id)) := by
  unfold turn
  cases hf : s.flights.lookup id with
  | none =>
    refine .inl ⟨fun f hmem => ?_, rfl⟩
    have hne := List.lookup_eq_none_iff.1 hf _ hmem
    simp at hne
  | some f =>
    obtain ⟨before, rest, hsplit, -⟩ := List.lookup_eq_some_iff.1 hf
    have hmem : (id, f) ∈ s.flights := by rw [hsplit]; simp
    refine .inr ⟨f, hmem, ?_⟩
    dsimp only
    set calls := (f.poll s.instant s.waited).2
    set polled : Yard := { s with
      flights := s.flights.map fun g => if g.1 = id then (id, (f.poll s.instant s.waited).1) else g
      waited := s.waited + calls.length }
    have hpolled : FliesOn s id (f.poll s.instant s.waited).1 (polled.notify (calls.map .called)) :=
      ⟨rfl, announcements_calls polled calls, landing?_calls polled calls, rfl, rfl⟩
    cases hl : (f.poll s.instant s.waited).1.landed? with
    | none => exact .inl ⟨rfl, hpolled⟩
    | some projects => exact .inr ⟨projects, rfl, (lands_land _ id projects).of_fliesOn hpolled⟩

/-! A start takes the next number, and a turn takes none. -/

theorem launched_turn (s : Yard) (id : Nat) : (s.turn id).launched = s.launched := by
  rcases turn_cases s id with ⟨-, hsame⟩ | ⟨f, -, ⟨-, hon⟩ | ⟨projects, -, hland⟩⟩
  · rw [hsame]
  · exact hon.launched
  · exact hland.launched

theorem launched_wake (s : Yard) (awaited : Option Nat) (time : Nat) :
    (s.wake awaited time).launched = s.launched :=
  List.foldlRecOn (motive := fun s' : Yard => s'.launched = s.launched) _ turn rfl
    fun s' h id _ => (s'.launched_turn id).trans h

theorem launched_launch (s : Yard) : s.launch.1.launched = s.launched + 1 := by
  rw [launch_eq]
  dsimp only
  split
  · exact s.launched_takeOff
  · exact (s.takeOff.launched_turn _).trans s.launched_takeOff

end Yard

end CrateYard
