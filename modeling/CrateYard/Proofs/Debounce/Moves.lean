import CrateYard.Debounce.Basic
import CrateYard.Proofs.Refresh.Acts

/-! The task of a debouncer, move by move. Time passes, signals are sent, the task receives them, its timer goes off and
a refresh ends, in any order in which that can happen. What a debouncer does on its clock is one such order. Histories
have the latest first. -/

namespace CrateYard.Debounce

/-- What a task has done. -/
inductive Entry where
  | received (time : Nat) (signal : Signal)
  | started (time : Nat)
deriving DecidableEq, Repr

/-- A task on a clock, with all that was sent to it and all that it did. -/
structure Watch where
  task : Task
  now : Nat
  sent : List Signal
  log : List Entry
deriving DecidableEq, Repr

inductive Move where
  | wait (ms : Nat)
  | send (signal : Signal)
  | receive
  | fire (refresh : Nat)
  | land
deriving DecidableEq, Repr

namespace Watch

variable {base : Nat} {w w' : Watch}

def start (now : Nat) : Watch := ⟨.start, now, [], []⟩

/-- A move, if it can be made. A task that waits for its refresh does nothing else; otherwise it receives what is in its
channel or starts a refresh, as it likes where both can be done. -/
def after? (base : Nat) (w : Watch) : Move → Option Watch
  | .wait ms => some { w with now := w.now + ms }
  | .send signal =>
    some { w with task := { w.task with queue := w.task.queue ++ [signal] }, sent := signal :: w.sent }
  | .receive =>
    match w.task.refreshing, w.task.queue with
    | none, signal :: rest =>
      (Task.receive { w.task with queue := rest } base w.now signal).map fun task =>
        { w with task := task, log := .received w.now signal :: w.log }
    | _, _ => none
  | .fire refresh =>
    if w.task.isDue w.now then some { w with task := w.task.fire refresh, log := .started w.now :: w.log } else none
  | .land =>
    if w.task.refreshing.isSome then some { w with task := { w.task with refreshing := none } } else none

def afterAll? (base : Nat) (w : Watch) (moves : List Move) : Option Watch :=
  moves.foldlM (after? base) w

theorem afterAll?_append (w : Watch) (moves more : List Move) :
    w.afterAll? base (moves ++ more) = (w.afterAll? base moves).bind (afterAll? base · more) :=
  List.foldlM_append

theorem afterAll?_cons_eq_some {m : Move} {rest : List Move} :
    w.afterAll? base (m :: rest) = some w' ↔ ∃ w₁, w.after? base m = some w₁ ∧ w₁.afterAll? base rest = some w' :=
  Option.bind_eq_some_iff

end Watch

theorem Task.receive_eq_some {t t' : Task} {now : Nat} {signal : Signal} (h : t.receive base now signal = some t') :
    ∃ b ms, t.backoff.receive? base signal = some (b, ms) ∧
      t' = { t with backoff := b, timer := some (now + Clock.sleep ms) } := by
  obtain ⟨⟨b, ms⟩, hb, rfl⟩ := Option.map_eq_some_iff.1 h
  exact ⟨b, ms, hb, rfl⟩

def Entry.isStart : Entry → Bool
  | .received _ _ => false
  | .started _ => true

def starts (log : List Entry) : Nat :=
  log.countP Entry.isStart

theorem starts_started (time : Nat) (log : List Entry) : starts (.started time :: log) = starts log + 1 :=
  List.countP_cons_of_pos rfl

namespace Watch

variable {base : Nat}

theorem afterAll?_receive {w : Watch} {t t' : Task} {queue : List Signal} (htask : w.task = { t with queue := queue })
    (hfree : t.refreshing = none) (hempty : t.queue = [])
    (h : queue.foldlM (fun t signal => t.receive base w.now signal) t = some t') :
    t'.queue = [] ∧ ∃ w', w.afterAll? base (List.replicate queue.length .receive) = some w' ∧ w'.task = t' ∧
      w'.now = w.now ∧ starts w'.log = starts w.log := by
  induction queue generalizing w t with
  | nil =>
    obtain rfl : t = t' := Option.some_inj.1 h
    refine ⟨hempty, w, rfl, ?_, rfl, rfl⟩
    rw [htask, ← hempty]
  | cons signal rest ih =>
    rw [List.foldlM_cons] at h
    obtain ⟨t₁, ht₁, hrest⟩ := Option.bind_eq_some_iff.1 h
    obtain ⟨b, ms, hb, rfl⟩ := Task.receive_eq_some ht₁
    set t₁ : Task := { t with backoff := b, timer := some (w.now + Clock.sleep ms) }
    set w₁ : Watch := ⟨{ t₁ with queue := rest }, w.now, w.sent, .received w.now signal :: w.log⟩
    have hreceive : w.after? base .receive = some w₁ := by
      simp [after?, htask, hfree, Task.receive, hb, t₁, w₁]
    obtain ⟨hempty', w', hw', htask', hnow', hstarts'⟩ := ih (w := w₁) (t := t₁) rfl hfree hempty hrest
    refine ⟨hempty', w', ?_, htask', hnow', hstarts'⟩
    exact afterAll?_cons_eq_some.2 ⟨w₁, hreceive, hw'⟩

end Watch

end CrateYard.Debounce

namespace CrateYard

open Debounce

namespace Debouncer

/-- A watch of the task of a debouncer, which has launched the refreshes that the watch has seen start, after so many
others. -/
structure Follows (others : Nat) (d : Debouncer) (w : Watch) : Prop where
  task : d.task = some w.task
  now : w.now = d.yard.now
  launched : d.yard.launched = others + starts w.log
  drained : w.task.refreshing = none → w.task.queue = []

/-- What happens to the task of a debouncer between two moments, if it is there at both, is a row of moves. -/
structure Moves (d d' : Debouncer) : Prop where
  base : d'.base = d.base
  alive : d'.task ≠ none → d.task ≠ none
  moves : d'.task ≠ none → ∀ others w, Follows others d w →
    ∃ moves w', w.afterAll? d.base moves = some w' ∧ Follows others d' w'

namespace Moves

variable {d d' d'' : Debouncer}

theorem refl (d : Debouncer) : Moves d d :=
  ⟨rfl, id, fun _ _ w hw => ⟨[], w, rfl, hw⟩⟩

theorem trans (h : Moves d d') (h' : Moves d' d'') : Moves d d'' := by
  refine ⟨h'.base.trans h.base, fun ht => h.alive (h'.alive ht), fun ht others w hw => ?_⟩
  obtain ⟨moves, w', hmoves, hw'⟩ := h.moves (h'.alive ht) others w hw
  obtain ⟨more, w'', hmore, hw''⟩ := h'.moves ht others w' hw'
  refine ⟨moves ++ more, w'', ?_, hw''⟩
  rw [Watch.afterAll?_append, hmoves]
  rw [h.base] at hmore
  exact hmore

theorem same (htask : d'.task = d.task) (hbase : d'.base = d.base) (hnow : d'.yard.now = d.yard.now)
    (hlaunched : d'.yard.launched = d.yard.launched) : Moves d d' :=
  ⟨hbase, fun h => htask ▸ h, fun _ _ w hw =>
    ⟨[], w, rfl, htask.trans hw.task, hw.now.trans hnow.symm, hlaunched.trans hw.launched, hw.drained⟩⟩

theorem deliver (d : Debouncer) : Moves d d.deliver := by
  refine ⟨rfl, fun h hnone => h (by simp [Debouncer.deliver, hnone]), fun halive others w hw => ?_⟩
  obtain ⟨t', ht'⟩ := Option.ne_none_iff_exists'.1 halive
  have htask := ht'
  simp only [Debouncer.deliver, hw.task, Option.bind_some] at htask
  split at htask
  · next hlanded =>
    -- the refresh of the task has landed
    obtain ⟨l, -, hl⟩ := List.any_eq_true.1 hlanded
    have hrefreshing : w.task.refreshing.isSome = true := by
      rw [← of_decide_eq_true hl]
      rfl
    set free : Watch := { w with task := { w.task with refreshing := none } }
    have hland : w.after? d.base .land = some free := if_pos hrefreshing
    rw [← hw.now] at htask
    obtain ⟨hempty, w', hmoves, hw', hnow, hstarts⟩ :=
      Watch.afterAll?_receive (w := free) (t := { free.task with queue := [] }) rfl rfl rfl htask
    refine ⟨_, w', Watch.afterAll?_cons_eq_some.2 ⟨free, hland, hmoves⟩, hw' ▸ ht', hnow.trans hw.now, ?_,
      fun _ => hw' ▸ hempty⟩
    rw [hstarts]
    exact hw.launched
  · obtain rfl := Option.some_inj.1 htask
    exact ⟨[], w, rfl, ht', hw.now, hw.launched, hw.drained⟩

theorem fire (d : Debouncer) : Moves d d.fire := by
  cases htask : d.task with
  | none =>
    have hsame : d.fire = d := by rw [Debouncer.fire, htask]
    rw [hsame]
    exact refl d
  | some t =>
    by_cases hdue : t.isDue d.yard.now = true
    · have hfire : d.fire = { d with yard := d.yard.launch.1, task := some (t.fire d.yard.launch.2) } := by
        rw [Debouncer.fire, htask]
        exact if_pos hdue
      rw [hfire]
      refine ⟨rfl, fun _ => by simp [htask], fun _ others w hw => ?_⟩
      obtain rfl : w.task = t := Option.some_inj.1 (hw.task.symm.trans htask)
      have hmove : w.after? d.base (.fire d.yard.launch.2) =
          some { w with task := w.task.fire d.yard.launch.2, log := .started w.now :: w.log } :=
        if_pos (by rwa [hw.now])
      refine ⟨[.fire d.yard.launch.2], _, Watch.afterAll?_cons_eq_some.2 ⟨_, hmove, rfl⟩, rfl, ?_, ?_, ?_⟩
      · exact hw.now.trans (Yard.launch_now d.yard).symm
      · dsimp only
        rw [Yard.launched_launch, hw.launched, starts_started]
        exact Nat.add_assoc _ _ _
      · exact fun hfree => absurd hfree (by simp [Task.fire])
    · have hsame : d.fire = d := by
        rw [Debouncer.fire, htask]
        exact if_neg hdue
      rw [hsame]
      exact refl d

theorem settle (d : Debouncer) : Moves d d.settle :=
  ((deliver d).trans (fire _)).trans (deliver _)

theorem pass {yard : Yard} (hnow : d.yard.now ≤ yard.now) (hlaunched : yard.launched = d.yard.launched) :
    Moves d { d with yard := yard } := by
  refine ⟨rfl, id, fun _ others w hw => ?_⟩
  refine ⟨[.wait (yard.now - d.yard.now)], { w with now := yard.now }, ?_, hw.task, rfl, ?_, hw.drained⟩
  · have htime : w.now + (yard.now - d.yard.now) = yard.now := by
      rw [hw.now]
      omega
    refine Watch.afterAll?_cons_eq_some.2 ⟨_, rfl, ?_⟩
    rw [htime]
    rfl
  · exact hlaunched.trans hw.launched

theorem wake {time : Nat} (h : d.yard.now ≤ time) : Moves d (d.wake time) := by
  have hpass : Moves d { d with yard := d.yard.wake none time } :=
    pass (by rwa [Yard.wake_now]) (d.yard.launched_wake none time)
  exact hpass.trans (settle _)

theorem advanceTo (limit : Nat) (d : Debouncer) : Moves d (d.advanceTo limit) := by
  fun_induction Debouncer.advanceTo limit d with
  | case1 d time hdue hlt ih => exact (wake (Nat.le_of_lt hlt.1)).trans ih
  | case2 d time hdue hlt => exact pass (Nat.le_max_left _ _) rfl
  | case3 d hdue => exact pass (Nat.le_max_left _ _) rfl

theorem awaitRoom (d : Debouncer) (t : Task) : Moves d (d.awaitRoom t) := by
  unfold Debouncer.awaitRoom
  split
  · split
    · exact refl d
    · exact advanceTo _ d
  · exact refl d

theorem push {t : Task} (htask : d.task = some t) (signal : Signal) :
    Moves d { d with task := t.send d.base d.yard.now signal } := by
  refine ⟨rfl, fun _ => by simp [htask], fun halive others w hw => ?_⟩
  obtain rfl : w.task = t := Option.some_inj.1 (hw.task.symm.trans htask)
  obtain ⟨t', ht'⟩ := Option.ne_none_iff_exists'.1 halive
  set sent : Watch :=
    { w with task := { w.task with queue := w.task.queue ++ [signal] }, sent := signal :: w.sent }
  have hsend : w.after? d.base (.send signal) = some sent := rfl
  have hsent := ht'
  simp only [Task.send] at hsent
  split at hsent
  · next hbusy =>
    obtain rfl := Option.some_inj.1 hsent
    refine ⟨[.send signal], sent, Watch.afterAll?_cons_eq_some.2 ⟨_, hsend, rfl⟩, ht', hw.now, hw.launched,
      fun hfree => ?_⟩
    have hfree' : w.task.refreshing = none := hfree
    rw [hfree'] at hbusy
    cases hbusy
  · next hfree =>
    have hfree' : w.task.refreshing = none := by simpa using hfree
    have hdrained := hw.drained hfree'
    have hqueue : sent.task = { w.task with queue := [signal] } := by simp [sent, hdrained]
    rw [← hw.now] at hsent
    obtain ⟨hempty, w', hmoves, hw', hnow, hstarts⟩ :=
      Watch.afterAll?_receive (w := sent) (t := w.task) hqueue hfree' hdrained
        (by rw [List.foldlM_cons]; exact Option.bind_eq_some_iff.2 ⟨t', hsent, rfl⟩)
    refine ⟨_, w', Watch.afterAll?_cons_eq_some.2 ⟨sent, hsend, hmoves⟩, hw' ▸ ht', hnow.trans hw.now, ?_,
      fun _ => hw' ▸ hempty⟩
    rw [hstarts]
    exact hw.launched

theorem send (d : Debouncer) (signal : Signal) : Moves d (d.send signal).1 := by
  unfold Debouncer.send
  cases htask : d.task with
  | none => simpa [htask] using refl d
  | some t =>
    dsimp only
    split
    · next t' htask' => exact (awaitRoom d t).trans ((push htask' signal).trans (settle _))
    · exact awaitRoom d t

theorem changed (d : Debouncer) (path : Path) : Moves d (d.changed path).1 := by
  unfold Debouncer.changed
  split
  · exact send d _
  · exact refl d

theorem changedTimes (path : Path) (times : Nat) (d : Debouncer) : Moves d (d.changedTimes path times).1 := by
  induction times generalizing d with
  | zero => exact refl d
  | succ times ih =>
    have hchanged := changed d path
    unfold Debouncer.changedTimes
    split
    · next d₁ h =>
      rw [h] at hchanged
      exact hchanged.trans (ih d₁)
    · next d₁ e h => rwa [h] at hchanged

end Moves

/-- What is asked of a debouncer, once it has started its task. -/
inductive Ask where
  | changed (path : Path) (times : Nat)
  | request
  | advance (ms : Nat)
  | attach (manifest : Path)
  | detach (manifest : Path)
  | close

def ask (d : Debouncer) : Ask → Debouncer
  | .changed path times => (d.changedTimes path times).1
  | .request => d.request.1
  | .advance ms => d.advance ms
  | .attach manifest => { d with yard := d.yard.after (.attach manifest) }
  | .detach manifest => { d with yard := d.yard.after (.detach manifest) }
  | .close => d.close

def askAll (d : Debouncer) (asks : List Ask) : Debouncer :=
  asks.foldl ask d

theorem Moves.ask (d : Debouncer) (x : Ask) : Moves d (d.ask x) := by
  cases x with
  | changed path times => exact changedTimes path times d
  | request => exact send d .requested
  | advance ms => exact advanceTo _ d
  | attach manifest => exact same rfl rfl rfl rfl
  | detach manifest => exact same rfl rfl rfl rfl
  | close => exact same rfl rfl rfl rfl

theorem Moves.askAll (asks : List Ask) (d : Debouncer) : Moves d (d.askAll asks) := by
  induction asks generalizing d with
  | nil => exact refl d
  | cons x rest ih => exact (ask d x).trans (ih _)

/-- Whatever is asked of a debouncer, as long as its task is there the task has made moves, one start for each refresh
that was launched. -/
theorem exists_moves_askAll {yard : Yard} {base : Nat} {asks : List Ask}
    (h : ((new yard base).start.askAll asks).task ≠ none) :
    ∃ moves w, (Watch.start yard.now).afterAll? base moves = some w ∧
      Follows yard.launched ((new yard base).start.askAll asks) w :=
  (Moves.askAll asks (new yard base).start).moves h yard.launched (Watch.start yard.now)
    ⟨rfl, rfl, rfl, fun _ => rfl⟩

end Debouncer

end CrateYard
