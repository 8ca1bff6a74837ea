import CrateYard.Discovery
import CrateYard.Project.Registry
import CrateYard.Refresh.Flight
import CrateYard.Text.Elapsed

/-! A yard of attached projects on a clock of milliseconds. Any number of refreshes may be on their way; each commits its
projects as one batch when it lands. Time moves from one end of a wait to the next. -/

namespace CrateYard

/-- What a yard tells others, in order. -/
inductive Notice where
  | called (call : Call)
  | announced (manifests : Registry.Announcement)
  | landed (flight : Nat) (time : Nat) (projects : List Project)

structure Yard where
  tree : FileTree
  toolchain : Toolchain
  registry : Registry
  now : Nat
  flights : List (Nat × Flight)
  launched : Nat
  waited : Nat
  notices : List Notice

namespace Yard

def start (tree : FileTree) (toolchain : Toolchain) : Yard :=
  ⟨tree, toolchain, .empty, 0, [], 0, 0, []⟩

def instant (s : Yard) : Instant :=
  ⟨s.now, s.tree, s.toolchain⟩

def notify (s : Yard) (notices : List Notice) : Yard :=
  { s with notices := s.notices ++ notices }

/-- Takes the result of an operation on the registry. -/
def apply (s : Yard) (c : Registry.Change α) : Yard :=
  let changed : Yard := { s with registry := c.registry }
  changed.notify (c.announced.map .announced)

def attach (s : Yard) (p : Path) : Except PathError (Yard × Bool) :=
  (s.tree.manifest p).map fun manifest =>
    let change := s.registry.attach manifest
    (s.apply change, change.answer)

def detach (s : Yard) (manifest : Path) : Yard × Bool :=
  let change := s.registry.detach manifest
  (s.apply change, change.answer)

def setHostData (s : Yard) (manifest : Path) (data : String) : Yard × Bool :=
  let change := s.registry.setHostData manifest data
  (s.apply change, change.answer)

/-- The flight ends: its projects are committed as one batch. -/
def land (s : Yard) (id : Nat) (projects : List Project) : Yard :=
  let change := s.registry.commit projects
  let left : Yard := { s with flights := s.flights.filter fun f => f.1 ≠ id }
  (left.apply change).notify [.landed id s.now change.answer]

/-- A flight takes what has arrived for it, and lands if that was all. -/
def turn (s : Yard) (id : Nat) : Yard :=
  match s.flights.lookup id with
  | none => s
  | some flight =>
    let (flight, calls) := flight.poll s.instant s.waited
    let polled : Yard := { s with
      flights := s.flights.map fun f => if f.1 = id then (id, flight) else f
      waited := s.waited + calls.length }
    let s := polled.notify (calls.map .called)
    match flight.landed? with
    | some projects => s.land id projects
    | none => s

def launch (s : Yard) : Yard × Nat :=
  let id := s.launched
  let s : Yard := { s with launched := id + 1 }
  if s.registry.isEmpty then (s.notify [.landed id s.now []], id)
  else
    let flight := Flight.start s.instant s.waited s.registry.projects
    let s : Yard := { s with flights := s.flights ++ [(id, flight)], waited := s.waited + 2 }
    ((s.notify [.called .compiler, .called .sysroot]).turn id, id)

def abandon (s : Yard) (id : Nat) : Yard :=
  { s with flights := s.flights.filter fun f => f.1 ≠ id }

/-- The projects that a flight has committed. -/
def landing? (s : Yard) (id : Nat) : Option (List Project) :=
  s.notices.findSome? fun
    | .landed flight _ projects => if flight = id then some projects else none
    | _ => none

def nextDue? (s : Yard) : Option Nat :=
  (s.flights.filterMap fun f => f.2.nextDue? s.now).min?

/-- The flights whose waits end now: the awaited one first, then by the order of their waits. -/
def ready (s : Yard) (awaited : Option Nat) : List Nat :=
  let turns := s.flights.filterMap fun f => (f.2.turnAt? s.now).map fun n => (f.1, n)
  let first := turns.filter fun x => some x.1 = awaited
  let others := (turns.filter fun x => some x.1 ≠ awaited).mergeSort fun a b => a.2 ≤ b.2
  (first ++ others).map (·.1)

def wake (s : Yard) (awaited : Option Nat) (time : Nat) : Yard :=
  let s := { s with now := time }
  (s.ready awaited).foldl turn s

@[simp]
theorem notify_now (s : Yard) (notices : List Notice) : (s.notify notices).now = s.now := rfl

@[simp]
theorem land_now (s : Yard) (id : Nat) (projects : List Project) : (s.land id projects).now = s.now := rfl

@[simp]
theorem turn_now (s : Yard) (id : Nat) : (s.turn id).now = s.now := by
  unfold turn
  split
  · rfl
  · dsimp only
    split <;> simp

@[simp]
theorem launch_now (s : Yard) : s.launch.1.now = s.now := by
  unfold launch
  dsimp only
  split <;> simp

theorem foldl_turn_now (ids : List Nat) (s : Yard) : (ids.foldl turn s).now = s.now := by
  induction ids generalizing s with
  | nil => rfl
  | cons id rest ih => simp [List.foldl_cons, ih]

@[simp]
theorem wake_now (s : Yard) (awaited : Option Nat) (time : Nat) : (s.wake awaited time).now = time := by
  simp [wake, foldl_turn_now]

/-- Lets time pass up to `limit`; waits that end exactly then still end. -/
def advanceTo (awaited : Option Nat) (limit : Nat) (s : Yard) : Yard :=
  match s.nextDue? with
  | some time =>
    if s.now < time ∧ time ≤ limit then advanceTo awaited limit (s.wake awaited time)
    else { s with now := max s.now limit }
  | none => { s with now := max s.now limit }
termination_by limit - s.now
decreasing_by simp only [wake_now]; omega

def advance (s : Yard) (ms : Nat) : Yard :=
  s.advanceTo none (s.now + ms)

/-- When a flight lands; now, if it has landed. -/
def landingTime (s : Yard) (id : Nat) : Nat :=
  match s.flights.lookup id with
  | some flight => flight.landingTime s.toolchain
  | none => s.now

/-- Refreshes everything that is attached, and waits until that is done. -/
def refresh (s : Yard) : Yard × List Project :=
  let (s, id) := s.launch
  let s := s.advanceTo (some id) (s.landingTime id)
  (s, (s.landing? id).getD [])

inductive RefreshFailure where
  | timedOut (ms : Nat)
  | noProjects
deriving DecidableEq, Repr

def RefreshFailure.message : RefreshFailure → String
  | .timedOut ms => "refresh did not finish within " ++ Text.elapsed ms
  | .noProjects => "no cargo project could be refreshed"

/-- Refreshes everything that is attached, but waits no longer than `timeout`: a refresh that takes longer is given
up, and there is nothing to answer. -/
def refreshIn (s : Yard) (timeout : Nat) : Yard × Option (List Project) :=
  let deadline := s.now + timeout
  let (s, id) := s.launch
  let s := s.advanceTo (some id) (min (s.landingTime id) deadline)
  match s.landing? id with
  | none => (s.abandon id, none)
  | some projects => (s, some projects)

/-- Refreshes within a time, and fails if no project has a workspace after it. -/
def refreshWithin (s : Yard) (timeout : Nat) : Yard × Except RefreshFailure (List Project) :=
  match s.refreshIn timeout with
  | (s, none) => (s, .error (.timedOut timeout))
  | (s, some projects) =>
    (s, if projects.all fun p => p.workspace.isNone then .error .noProjects else .ok projects)

/-- Attaches the manifests found below the roots, unless something is attached already. -/
def discover (s : Yard) (roots : List Path) (depth : Nat) : Yard :=
  let found := if s.registry.isEmpty then roots.flatMap (Discovery.manifests s.tree depth) else []
  found.foldl (fun s manifest => s.apply (s.registry.attach manifest)) s

/-- Discovers manifests and refreshes. -/
def refreshFound (s : Yard) (roots : List Path) (depth : Nat) : Yard × List Project :=
  (s.discover roots depth).refresh

end Yard
end CrateYard
