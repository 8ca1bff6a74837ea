import CrateYard.Build.Run
import CrateYard.Build.Schedule
import Mathlib.Data.List.Basic
import Mathlib.Tactic.Common

/-! What can be seen of a site: where a build is, its result, the lock of a host and who holds it. Each primitive
change of a site is described once by what it does to these views; nothing else unfolds it. -/

namespace CrateYard

namespace Readership

variable {α : Type}

/-- What a cell without a value is after a write. -/
def written (o : Readership α) (a : α) : Readership α :=
  ⟨⟨some a, o.cell.version + 1⟩, o.readers.map Reader.wake⟩

theorem write_eq {o : Readership α} (h : o.cell.value = none) (a : α) : o.write a = .ok (o.written a) := by
  simp [Readership.write, Once.write, Once.isWritten, h, Except.map, written]

end Readership

namespace Build

open Output (Artifact)

namespace Lock

/-- The permits that nobody has. -/
def free (l : Lock) : Nat :=
  if l.isFree then 1 else 0

/-- The permits that were handed to a waiter who has not taken them yet. -/
def onItsWay (l : Lock) : Nat :=
  l.handed.toList.length

/-- All who wait for the lock, the one to whom it was handed first. -/
def tickets (l : Lock) : List Ticket :=
  l.handed.toList ++ l.queue

@[simp]
theorem free_mk (b : Bool) (h : Option Ticket) (q : List Ticket) : (Lock.mk b h q).free = if b then 1 else 0 := rfl

@[simp]
theorem onItsWay_mk (b : Bool) (h : Option Ticket) (q : List Ticket) :
    (Lock.mk b h q).onItsWay = h.toList.length := rfl

theorem free_add_onItsWay_release {l : Lock} (hf : l.free = 0) (hw : l.onItsWay = 0) :
    l.release.free + l.release.onItsWay = 1 := by
  unfold release
  cases hq : l.queue with
  | nil => simpa [onItsWay] using hw
  | cons t rest => simpa [free] using hf

theorem tickets_release {l : Lock} (hw : l.handed = none) : l.release.tickets = l.tickets := by
  unfold release tickets
  cases hq : l.queue <;> simp [hw]

theorem handed_eq_none {l : Lock} : l.onItsWay = 0 ↔ l.handed = none := by
  unfold onItsWay
  cases l.handed <;> simp

theorem onItsWay_of_handed {l : Lock} {t : Ticket} (h : l.handed = some t) : l.onItsWay = 1 := by
  simp [onItsWay, h]

end Lock

/-- What a build is once it has come to its end. -/
def Job.ended (job : Job) (v : Verdict) (outcome : Readership Result) : Job :=
  { job with state := v.state, hasEnded := true, outcome := outcome }

namespace Site

def state? (s : Site) (build : Nat) : Option State :=
  (s.job? build).map Job.state

def result? (s : Site) (build : Nat) : Option Result :=
  (s.job? build).bind fun job => job.outcome.cell.value

def holders (s : Site) (host : String) : Nat :=
  s.jobs.countP fun job => job.holds = some host

/-- A build was canceled without having run. -/
def IsRefused (s : Site) (build : Nat) : Prop :=
  s.state? build = some .canceled ∧
    ∃ result, s.result? build = some result ∧ result.canceled = true ∧ result.succeeded = false

theorem state?_eq {s : Site} {b : Nat} {job : Job} (hj : s.job? b = some job) : s.state? b = some job.state := by
  rw [state?, hj]
  rfl

/-! One build changes. -/

section update

variable {f : Job → Job} (hf : ∀ x, (f x).number = x.number) (s : Site) (b : Nat)
include hf

theorem job?_update (n : Nat) : (s.update b f).job? n = if n = b then (s.job? b).map f else s.job? n := by
  unfold job? update
  have hp : (fun job : Job => decide (job.number = n)) ∘ (fun x => if x.number = b then f x else x) =
      fun job => decide (job.number = n) := by
    funext x
    by_cases hx : x.number = b <;> simp [hx, hf]
  rw [List.find?_map, hp]
  split
  · next h =>
    subst h
    cases hj : s.jobs.find? fun job => decide (job.number = n) with
    | none => rfl
    | some job =>
      have : job.number = n := by simpa using List.find?_some hj
      simp [this]
  · next h =>
    cases hj : s.jobs.find? fun job => decide (job.number = n) with
    | none => rfl
    | some job =>
      have : job.number = n := by simpa using List.find?_some hj
      simp [this, h]

theorem job?_update_self {job : Job} (hj : s.job? b = some job) : (s.update b f).job? b = some (f job) := by
  rw [job?_update hf, if_pos rfl, hj]
  rfl

theorem state?_update (n : Nat) :
    (s.update b f).state? n = if n = b then (s.job? b).map (fun x => (f x).state) else s.state? n := by
  unfold state?
  rw [job?_update hf]
  split
  · simp [Function.comp_def]
  · rfl

theorem result?_update (n : Nat) :
    (s.update b f).result? n =
      if n = b then (s.job? b).bind (fun x => (f x).outcome.cell.value) else s.result? n := by
  unfold result?
  rw [job?_update hf]
  split
  · cases s.job? b <;> rfl
  · rfl

theorem numbers_update : (s.update b f).jobs.map Job.number = s.jobs.map Job.number := by
  unfold update
  rw [List.map_map]
  apply List.map_congr_left
  intro x _
  by_cases hx : x.number = b <;> simp [hx, hf]

end update

theorem holders_update_of_holds_eq {f : Job → Job} (hf : ∀ x, (f x).holds = x.holds) (s : Site) (b : Nat)
    (host : String) : (s.update b f).holders host = s.holders host := by
  unfold holders update
  rw [List.countP_map]
  congr 1
  funext x
  by_cases hx : x.number = b <;> simp [hx, hf]

/-- Counting after one element has changed, where the numbers tell the elements apart. -/
theorem countP_map_update (p : Job → Bool) (f : Job → Job) (b : Nat) {l : List Job} {job : Job}
    (hl : (l.map Job.number).Nodup) (hj : l.find? (fun x => x.number = b) = some job) :
    (l.map fun x => if x.number = b then f x else x).countP p + (if p job then 1 else 0) =
      l.countP p + (if p (f job) then 1 else 0) := by
  induction l with
  | nil => simp at hj
  | cons x rest ih =>
    rw [List.map_cons, List.nodup_cons] at hl
    by_cases hx : x.number = b
    · have hrest : (rest.map fun y => if y.number = b then f y else y) = rest := by
        refine List.map_congr_left (fun y hy => ?_) |>.trans (List.map_id _)
        have : y.number ≠ b := fun h => hl.1 (List.mem_map.2 ⟨y, hy, h.trans hx.symm⟩)
        simp [this]
      obtain rfl : x = job := by simpa [hx] using hj
      rw [List.map_cons, hrest, if_pos hx, List.countP_cons, List.countP_cons]
      omega
    · have := ih hl.2 (by simpa [hx] using hj)
      rw [List.map_cons, if_neg hx, List.countP_cons, List.countP_cons]
      omega

/-! The lock of a host changes, or something is announced. -/

@[simp]
theorem lock_setLock (s : Site) (host host' : String) (l : Lock) :
    (s.setLock host l).lock host' = if host' = host then l else s.lock host' := by
  unfold lock setLock
  rw [Table.get?_set]
  split <;> rfl

@[simp]
theorem mem_notices_publish (s : Site) (lane : Lane) (events : List Progress) (n : Notice) :
    n ∈ (s.publish lane events).notices ↔ n ∈ s.notices ∨ ∃ e ∈ events, n = .published lane.number e := by
  simp [publish, notify, eq_comm]

/-! A build comes to its end. -/

theorem update_update (f g : Job → Job) (hf : ∀ x, (f x).number = x.number) (s : Site) (b : Nat) :
    (s.update b f).update b g = s.update b fun x => g (f x) := by
  unfold update
  simp only [List.map_map]
  congr 1
  apply List.map_congr_left
  intro x _
  by_cases hx : x.number = b <;> simp [hx, hf]

theorem conclude_eq (s : Site) (lane : Lane) {job : Job} (h : job.outcome.cell.value = none) (v : Verdict)
    (result : Result) :
    s.conclude lane job v result =
      ((s.update job.number fun x => x.ended v (job.outcome.written result)).publish lane
        [.finished result.id result.message result.succeeded result.canceled,
          .notification result.id v.severity result.message], .ok result) := by
  unfold conclude
  rw [Readership.write_eq h]
  dsimp only
  rw [update_update (fun x => { x with state := v.state, hasEnded := true })
    (fun x => { x with outcome := job.outcome.written result }) fun _ => rfl]
  rfl

end Site
end Build
end CrateYard
