import CrateYard.Clock
import CrateYard.Debounce.Backoff
import CrateYard.Refresh.Yard

/-! The debouncer: signals that come in quick succession lead to one refresh, a delay after the last of them. While
it refreshes, signals wait in its channel. -/

namespace CrateYard.Debounce

structure Task where
  backoff : Backoff
  timer : Option Nat
  /-- The number of the refresh that the task waits for. -/
  refreshing : Option Nat
  queue : List Signal
deriving DecidableEq, Repr

/-- How many signals can wait. -/
def channelSize : Nat := 64

namespace Task

def start : Task := ⟨.fresh, none, none, []⟩

/-- A signal reaches the task: the timer is set anew. A task whose arithmetic fails is gone. -/
def receive (t : Task) (base now : Nat) (signal : Signal) : Option Task :=
  (t.backoff.receive? base signal).map fun (backoff, ms) =>
    { t with backoff := backoff, timer := some (now + Clock.sleep ms) }

def send (t : Task) (base now : Nat) (signal : Signal) : Option Task :=
  if t.refreshing.isSome then some { t with queue := t.queue ++ [signal] } else t.receive base now signal

/-- The refresh has ended: the signals that waited are received. -/
def resume (t : Task) (base now : Nat) : Option Task :=
  t.queue.foldlM (fun t signal => t.receive base now signal) { t with refreshing := none, queue := [] }

def isDue (t : Task) (now : Nat) : Bool :=
  t.refreshing.isNone && t.timer.any (· ≤ now)

/-- The timer has gone off, and the task waits for a refresh. -/
def fire (t : Task) (refresh : Nat) : Task :=
  { t with timer := none, refreshing := some refresh }

def nextDue? (t : Task) (now : Nat) : Option Nat :=
  if t.refreshing.isNone then t.timer.filter (now < ·) else none

end Task

structure Batch where
  time : Nat
  projects : List Project

inductive SendError where
  | closed
deriving DecidableEq, Repr

def SendError.message : SendError → String
  | .closed => "channel closed"

end Debounce

open Debounce

structure Debouncer where
  yard : Yard
  base : Nat
  task : Option Task
  /-- Somebody takes the batches. -/
  isOpen : Bool
  batches : List Batch

namespace Debouncer

def new (yard : Yard) (base : Nat) : Debouncer :=
  ⟨yard, base, none, true, []⟩

/-- A `Cargo.toml` inside an attached project, or the lock file beside an attached manifest. -/
def matters (d : Debouncer) (path : Path) : Bool :=
  if path.fileName? = some Path.manifestName.text then
    (d.yard.registry.projectOf? d.yard.tree path).isSome
  else path.fileName? = some Path.lockName &&
    d.yard.registry.manifests.any fun manifest => manifest.lockFile.same path

/-- Starts a task in place of one that runs; a refresh that is on its way goes on. -/
def start (d : Debouncer) : Debouncer :=
  { d with task := some .start }

/-- Nobody takes the batches any more. -/
def close (d : Debouncer) : Debouncer :=
  { d with isOpen := false }

/-- Delivers the refreshes that have ended, and lets the task go on after its own. -/
def deliver (d : Debouncer) : Debouncer :=
  let landed := d.yard.notices.filterMap fun
    | .landed flight time projects => some (flight, (⟨time, projects⟩ : Batch))
    | _ => none
  let rest := d.yard.notices.filter fun
    | .landed _ _ _ => false
    | _ => true
  { d with
    yard := { d.yard with notices := rest }
    batches := if d.isOpen then d.batches ++ landed.map (·.2) else d.batches
    task := d.task.bind fun t =>
      if landed.any fun l => some l.1 = t.refreshing then t.resume d.base d.yard.now else some t }

/-- Begins a refresh if it is time. -/
def fire (d : Debouncer) : Debouncer :=
  match d.task with
  | some t =>
    if t.isDue d.yard.now then
      let (yard, id) := d.yard.launch
      { d with yard := yard, task := some (t.fire id) }
    else d
  | none => d

/-- Everything that can be done now. -/
def settle (d : Debouncer) : Debouncer :=
  d.deliver.fire.deliver

def nextDue? (d : Debouncer) : Option Nat :=
  (d.yard.nextDue?.toList ++ (d.task.bind fun t => t.nextDue? d.yard.now).toList).min?

def wake (d : Debouncer) (time : Nat) : Debouncer :=
  { d with yard := d.yard.wake none time }.settle

theorem deliver_now (d : Debouncer) : d.deliver.yard.now = d.yard.now := rfl

theorem fire_now (d : Debouncer) : d.fire.yard.now = d.yard.now := by
  unfold fire
  split
  · split
    · simp
    · rfl
  · rfl

theorem wake_now (d : Debouncer) (time : Nat) : (d.wake time).yard.now = time := by
  simp [wake, settle, deliver_now, fire_now]

/-- Lets time pass up to `limit`. -/
def advanceTo (limit : Nat) (d : Debouncer) : Debouncer :=
  match d.nextDue? with
  | some time =>
    if d.yard.now < time ∧ time ≤ limit then advanceTo limit (d.wake time)
    else { d with yard := { d.yard with now := max d.yard.now limit } }
  | none => { d with yard := { d.yard with now := max d.yard.now limit } }
termination_by limit - d.yard.now
decreasing_by rw [wake_now]; omega

def advance (d : Debouncer) (ms : Nat) : Debouncer :=
  d.advanceTo (d.yard.now + ms)

/-- Waits until the channel has room for a signal: a full one is emptied when the refresh of the task ends. -/
def awaitRoom (d : Debouncer) (t : Task) : Debouncer :=
  match t.refreshing with
  | some id => if t.queue.length < channelSize then d else d.advanceTo (d.yard.landingTime id)
  | none => d

def send (d : Debouncer) (signal : Signal) : Debouncer × Option SendError :=
  let d := match d.task with
    | some t => d.awaitRoom t
    | none => d
  match d.task with
  | some t => ({ d with task := t.send d.base d.yard.now signal }.settle, none)
  | none => (d, some .closed)

/-- Reports a changed file; one that cannot matter is passed over. -/
def changed (d : Debouncer) (path : Path) : Debouncer × Option SendError :=
  if d.matters path then d.send (.changed path) else (d, none)

/-- Reports a file that changed so many times in a row, up to the first report that cannot be sent. -/
def changedTimes (d : Debouncer) (path : Path) : Nat → Debouncer × Option SendError
  | 0 => (d, none)
  | times + 1 =>
    match d.changed path with
    | (d, none) => d.changedTimes path times
    | (d, some e) => (d, some e)

def request (d : Debouncer) : Debouncer × Option SendError :=
  d.send .requested

end Debouncer
end CrateYard
