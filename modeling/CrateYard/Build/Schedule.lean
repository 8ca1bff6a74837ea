import CrateYard.Build.Site

/-! Builds on a clock of milliseconds. Time moves from one end of a poll interval to the next; at each instant the
waiters whose interval has ended take their turns in the order of their tickets, then handed locks are taken. -/

namespace CrateYard.Build.Site

def waiting (s : Site) : List Ticket :=
  s.locks.values.flatMap Lock.queue

/-- The waiters whose interval has ended, in the order of their tickets. -/
def due (s : Site) : List Ticket :=
  (s.waiting.filter fun t => t.deadline ≤ s.now).mergeSort fun a b => a.number ≤ b.number

def nextDue? (s : Site) : Option Nat :=
  ((s.waiting.map Ticket.deadline).filter (s.now < ·)).min?

/-- Everything that can be done now. -/
def settle (s : Site) : Site :=
  let s := s.due.foldl expire s
  let s := s.locks.keys.foldl take s
  (s.jobs.map Job.number).foldl serveReaders s

def wake (s : Site) (time : Nat) : Site :=
  settle { s with now := time }

@[simp]
theorem conclude_now (s : Site) (lane : Lane) (job : Job) (v : Verdict) (result : Result) :
    (s.conclude lane job v result).1.now = s.now := by
  unfold conclude
  dsimp only
  split <;> rfl

@[simp]
theorem run_now (s : Site) (lane : Lane) (job : Job) (request : Nat) :
    (s.run lane job request).now = s.now := rfl

@[simp]
theorem queue_now (s : Site) (lane : Lane) (job : Job) (request : Nat) :
    (s.queue lane job request).now = s.now := by
  unfold queue
  dsimp only
  split <;> rfl

@[simp]
theorem look_now (s : Site) (lane : Lane) (job : Job) (request : Nat) :
    (s.look lane job request).now = s.now := by
  unfold look
  split
  · have h : (s.concludeCanceled lane job).1.now = s.now := conclude_now ..
    split
    · next hr => rw [hr] at h; exact h
    · next hr => rw [hr] at h; exact h
  · simp

@[simp]
theorem expire_now (s : Site) (ticket : Ticket) : (s.expire ticket).now = s.now := by
  unfold expire
  dsimp only
  split
  · split
    · simp [setLock]
    · rfl
  · rfl

@[simp]
theorem take_now (s : Site) (host : String) : (s.take host).now = s.now := by
  unfold take
  split
  · rfl
  · dsimp only
    split <;> rfl

theorem foldl_now (f : Site → α → Site) (h : ∀ s a, (f s a).now = s.now) (l : List α) (s : Site) :
    (l.foldl f s).now = s.now := by
  induction l generalizing s with
  | nil => rfl
  | cons a rest ih => rw [List.foldl_cons, ih, h]

@[simp]
theorem settle_now (s : Site) : s.settle.now = s.now := by
  unfold settle
  dsimp only
  rw [foldl_now serveReaders (fun _ _ => rfl), foldl_now take take_now, foldl_now expire expire_now]

/-- Lets time pass up to `limit`; intervals that end exactly then still end. -/
def advanceTo (limit : Nat) (s : Site) : Site :=
  match s.nextDue? with
  | some time =>
    if s.now < time ∧ time ≤ limit then advanceTo limit (s.wake time) else { s with now := max s.now limit }
  | none => { s with now := max s.now limit }
termination_by limit - s.now
decreasing_by simp only [wake, settle_now]; omega

def advance (s : Site) (ms : Nat) : Site :=
  s.advanceTo (s.now + ms)

end CrateYard.Build.Site
