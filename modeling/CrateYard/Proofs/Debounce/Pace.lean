import CrateYard.Proofs.Debounce.Moves
import CrateYard.Proofs.Refresh.Registry
import Mathlib.Algebra.Group.Nat.Defs

/-! The pace of a debouncer. In whatever order its task moves, the timer is set for the signal that was received last,
and a refresh starts only when it has gone off. That holds of every order of moves, so of those that a debouncer makes
on its clock. -/

namespace CrateYard.Debounce

def Signal.isChangeOf (path : Path) : Signal → Bool
  | .changed p => path.same p
  | .requested => false

/-- How many changes of a file were received last, with no other signal among them. -/
def changesInRow (path : Path) (received : List Signal) : Nat :=
  (received.takeWhile (Signal.isChangeOf path)).length

/-- How long to wait after a signal, given those that were received before it. -/
def delayOf (base : Nat) (received : List Signal) : Signal → Nat
  | .requested => base
  | .changed path => min (base * factor (changesInRow path received)) longestDelay

/-! What a backoff remembers. -/

theorem changesInRow_cons (path : Path) (signal : Signal) (received : List Signal) :
    changesInRow path (signal :: received) =
      if signal.isChangeOf path then changesInRow path received + 1 else 0 := by
  unfold changesInRow
  rw [List.takeWhile_cons]
  split <;> rfl

theorem changesInRow_congr {path other : Path} (h : path.same other = true) (received : List Signal) :
    changesInRow path received = changesInRow other received := by
  have hsame : Signal.isChangeOf path = Signal.isChangeOf other := by
    funext signal
    cases signal with
    | changed p => simp only [Signal.isChangeOf, Path.same, Path.same_iff.1 h]
    | requested => rfl
  rw [changesInRow, changesInRow, hsame]

theorem factor_le (repeats : Nat) : factor repeats ≤ 5 := by
  unfold factor
  split
  · decide
  · split
    · decide
    · split
      · decide
      · split <;> decide

theorem eq_of_delay? {base repeats ms : Nat} (h : delay? base repeats = some ms) :
    ms = min (base * factor repeats) longestDelay := by
  unfold delay? at h
  split at h
  · exact (Option.some_inj.1 h).symm
  · cases h

theorem exists_delay? {base : Nat} (hbase : base * 5 < 2 ^ 64) (repeats : Nat) : ∃ ms, delay? base repeats = some ms :=
  ⟨_, if_pos (Nat.lt_of_le_of_lt (Nat.mul_le_mul_left base (factor_le repeats)) hbase)⟩

namespace Backoff

variable {b b' : Backoff} {received : List Signal} {base : Nat}

/-- It remembers the changes that were received last: of which file, and one less than how many. -/
def Counts (b : Backoff) (received : List Signal) : Prop :=
  ∀ path, changesInRow path received = if b.last.any path.same then b.repeats + 1 else 0

theorem counts_fresh_nil : fresh.Counts [] := fun _ => rfl

theorem counts_fresh_requested (received : List Signal) : fresh.Counts (.requested :: received) := fun path => by
  rw [changesInRow_cons]
  rfl

theorem counts_changed {path last : Path} (hlast : b.last = some last) (hsame : path.same last = true)
    (hrepeats : b.repeats = changesInRow path received) : b.Counts (.changed path :: received) := fun p => by
  have heq : p.same last = p.same path := by simp only [Path.same, Path.same_iff.1 hsame]
  rw [changesInRow_cons, hlast, hrepeats]
  change (if p.same path = true then _ else _) = if p.same last = true then _ else _
  rw [heq]
  by_cases hp : p.same path = true
  · rw [if_pos hp, if_pos hp, changesInRow_congr hp]
  · rw [if_neg hp, if_neg hp]

/-- A change repeats those of the same file that were received right before it. -/
theorem Counts.change (h : b.Counts received) {path : Path} (hb : b.change? path = some b') :
    b'.repeats = changesInRow path received ∧ b'.Counts (.changed path :: received) := by
  have hrow := h path
  unfold change? at hb
  by_cases hany : b.last.any path.same = true
  · rw [if_pos hany] at hb hrow
    obtain ⟨last, hlast, hsame⟩ := (Option.any_eq_true _ _).1 hany
    split at hb
    · obtain rfl := Option.some_inj.1 hb
      exact ⟨hrow.symm, counts_changed hlast hsame hrow.symm⟩
    · cases hb
  · rw [if_neg hany] at hb hrow
    obtain rfl := Option.some_inj.1 hb
    exact ⟨hrow.symm, counts_changed rfl (Path.same_iff.2 rfl) hrow.symm⟩

theorem Counts.exists_change (h : b.Counts received) {path : Path} (hfew : changesInRow path received < 2 ^ 32) :
    ∃ b', b.change? path = some b' := by
  have hrow := h path
  unfold change?
  by_cases hany : b.last.any path.same = true
  · rw [if_pos hany] at hrow ⊢
    exact ⟨_, if_pos (hrow ▸ hfew)⟩
  · rw [if_neg hany]
    exact ⟨_, rfl⟩

/-- The delay of a signal is the one that those before it give it. -/
theorem Counts.receive (h : b.Counts received) {signal : Signal} {ms : Nat}
    (hb : b.receive? base signal = some (b', ms)) :
    b'.Counts (signal :: received) ∧ ms = delayOf base received signal := by
  cases signal with
  | requested =>
    obtain ⟨rfl, rfl⟩ := Prod.mk.inj (Option.some_inj.1 hb)
    exact ⟨counts_fresh_requested received, rfl⟩
  | changed path =>
    obtain ⟨b₁, hb₁, hb⟩ := Option.bind_eq_some_iff.1 hb
    obtain ⟨ms₁, hms₁, hb⟩ := Option.bind_eq_some_iff.1 hb
    obtain ⟨rfl, rfl⟩ := Prod.mk.inj (Option.some_inj.1 hb)
    obtain ⟨hrepeats, hcounts⟩ := h.change hb₁
    exact ⟨hcounts, by rw [eq_of_delay? hms₁, hrepeats, delayOf]⟩

theorem Counts.exists_receive (h : b.Counts received) (hbase : base * 5 < 2 ^ 64) {signal : Signal}
    (hfew : ∀ path, signal = .changed path → changesInRow path received < 2 ^ 32) :
    ∃ b' ms, b.receive? base signal = some (b', ms) := by
  cases signal with
  | requested => exact ⟨_, _, rfl⟩
  | changed path =>
    obtain ⟨b', hb'⟩ := h.exists_change (hfew path rfl)
    obtain ⟨ms, hms⟩ := exists_delay? hbase b'.repeats
    exact ⟨b', ms, by simp [receive?, hb', hms]⟩

end Backoff

/-! The timer and the starts. -/

def Entry.signal? : Entry → Option Signal
  | .received _ signal => some signal
  | .started _ => none

def signals (log : List Entry) : List Signal :=
  log.filterMap Entry.signal?

/-- For when the timer is set. -/
def armed (base : Nat) : List Entry → Option Nat
  | .received time signal :: older => some (time + Clock.sleep (delayOf base (signals older) signal))
  | _ => none

/-- Every refresh starts when a timer has gone off. -/
inductive Paced (base : Nat) : List Entry → Prop
  | nil : Paced base []
  | received (time : Nat) (signal : Signal) {log : List Entry} :
      Paced base log → Paced base (.received time signal :: log)
  | started {time due : Nat} {log : List Entry} : armed base log = some due → due ≤ time → Paced base log →
      Paced base (.started time :: log)

theorem eq_of_armed {base due : Nat} {log : List Entry} (h : armed base log = some due) :
    ∃ receipt signal before, log = .received receipt signal :: before ∧
      due = receipt + Clock.sleep (delayOf base (signals before) signal) := by
  match log with
  | .received receipt signal :: before => exact ⟨receipt, signal, before, rfl, (Option.some_inj.1 h).symm⟩
  | .started _ :: _ => cases h
  | [] => cases h

/-- Right before a start stands a receipt, as long ago as its delay or longer. -/
theorem Paced.exists_receipt {base : Nat} {log : List Entry} (h : Paced base log) {newer older : List Entry}
    {time : Nat} (hlog : log = newer ++ .started time :: older) :
    ∃ receipt signal before, older = .received receipt signal :: before ∧
      receipt + Clock.sleep (delayOf base (signals before) signal) ≤ time := by
  induction h generalizing newer with
  | nil => cases newer <;> cases hlog
  | received t s hpaced ih =>
    cases newer with
    | nil => cases hlog
    | cons e newer => exact ih (List.cons.inj hlog).2
  | @started t due log harmed hle hpaced ih =>
    cases newer with
    | nil =>
      obtain ⟨he, rfl⟩ := List.cons.inj hlog
      obtain rfl : t = time := by injection he
      obtain ⟨receipt, signal, before, rfl, rfl⟩ := eq_of_armed harmed
      exact ⟨receipt, signal, before, rfl, hle⟩
    | cons e newer => exact ih (List.cons.inj hlog).2

theorem exists_latest_receipt {since before : List Entry} {receipt : Nat} {signal : Signal}
    (hsince : ∀ time, .started time ∉ since) :
    ∃ latest last older, since ++ .received receipt signal :: before = .received latest last :: older := by
  match since with
  | [] => exact ⟨receipt, signal, before, rfl⟩
  | .received latest last :: newer => exact ⟨latest, last, newer ++ .received receipt signal :: before, rfl⟩
  | .started time :: newer => exact absurd List.mem_cons_self (hsince time)

namespace Watch

variable {base : Nat} {w w' : Watch}

structure Good (base : Nat) (w : Watch) : Prop where
  backoff : w.task.backoff.Counts (signals w.log)
  timer : w.task.timer = armed base w.log
  free : w.task.timer ≠ none → w.task.refreshing = none
  paced : Paced base w.log
  sent : w.sent = w.task.queue.reverse ++ signals w.log

theorem good_start (base now : Nat) : Good base (start now) :=
  ⟨Backoff.counts_fresh_nil, rfl, fun h => absurd rfl h, .nil, rfl⟩

theorem Good.after (h : Good base w) {m : Move} (hm : w.after? base m = some w') : Good base w' := by
  cases m with
  | wait ms =>
    obtain rfl := Option.some_inj.1 hm
    exact ⟨h.backoff, h.timer, h.free, h.paced, h.sent⟩
  | send signal =>
    obtain rfl := Option.some_inj.1 hm
    refine ⟨h.backoff, h.timer, h.free, h.paced, ?_⟩
    simp [h.sent]
  | receive =>
    simp only [after?] at hm
    split at hm
    · next signal rest hfree hqueue =>
      obtain ⟨task, htask, rfl⟩ := Option.map_eq_some_iff.1 hm
      obtain ⟨b, ms, hb, rfl⟩ := Task.receive_eq_some htask
      obtain ⟨hcounts, rfl⟩ := h.backoff.receive hb
      refine ⟨hcounts, rfl, fun _ => hfree, .received _ _ h.paced, ?_⟩
      rw [h.sent, hqueue]
      simp [signals, Entry.signal?]
    · cases hm
  | fire refresh =>
    simp only [after?] at hm
    split at hm
    · next hdue =>
      obtain rfl := Option.some_inj.1 hm
      obtain ⟨-, hdue⟩ := Bool.and_eq_true_iff.1 hdue
      obtain ⟨due, htimer, hle⟩ := (Option.any_eq_true _ _).1 hdue
      rw [h.timer] at htimer
      exact ⟨h.backoff, rfl, fun hne => absurd rfl hne, .started htimer (of_decide_eq_true hle) h.paced, h.sent⟩
    · cases hm
  | land =>
    simp only [after?] at hm
    split at hm
    · obtain rfl := Option.some_inj.1 hm
      exact ⟨h.backoff, h.timer, fun _ => rfl, h.paced, h.sent⟩
    · cases hm

theorem Good.afterAll (h : Good base w) {moves : List Move} (hw : w.afterAll? base moves = some w') : Good base w' := by
  induction moves generalizing w with
  | nil =>
    obtain rfl := Option.some_inj.1 hw
    exact h
  | cons m rest ih =>
    obtain ⟨w₁, hm, hrest⟩ := afterAll?_cons_eq_some.1 hw
    exact ih (h.after hm) hrest

/-! What is in the channel is received, and what is received leads to a refresh. -/

theorem Good.exists_receive (h : Good base w) (hbase : base * 5 < 2 ^ 64) {signal : Signal} {rest : List Signal}
    (hfree : w.task.refreshing = none) (hqueue : w.task.queue = signal :: rest)
    (hfew : ∀ path, signal = .changed path → changesInRow path (signals w.log) < 2 ^ 32) :
    ∃ w', w.after? base .receive = some w' ∧ w'.log = .received w.now signal :: w.log ∧ w'.task.queue = rest := by
  obtain ⟨b, ms, hb⟩ := h.backoff.exists_receive hbase hfew
  simp only [after?, hfree, hqueue, Task.receive, hb]
  exact ⟨_, rfl, rfl, rfl⟩

theorem Good.exists_fire (h : Good base w) {due : Nat} (hdue : armed base w.log = some due) :
    ∃ moves w', w.afterAll? base moves = some w' ∧ w'.log = .started (max w.now due) :: w.log := by
  have htimer := h.timer.trans hdue
  have hfree := h.free (by rw [htimer]; simp)
  have hnow : w.now + (due - w.now) = max w.now due := by omega
  have hgoes : w.task.isDue (max w.now due) = true := by
    rw [Task.isDue, hfree, htimer]
    exact decide_eq_true (Nat.le_max_right _ _)
  have hwait : w.after? base (.wait (due - w.now)) = some { w with now := max w.now due } := by rw [after?, hnow]
  exact ⟨[.wait (due - w.now), .fire 0], _,
    afterAll?_cons_eq_some.2 ⟨_, hwait, afterAll?_cons_eq_some.2 ⟨_, if_pos hgoes, rfl⟩⟩, rfl⟩

/-- Signals are sent, received and waited for, and refreshes start and end, in any order in which that can happen. Right
before each start of a refresh stands the receipt of a signal, at least as long before as the signal is to be waited
for; so between two starts a signal was received. As long as no refresh has started after a signal was received, the
timer is set for the signal that was received last, and can go off. What was sent has been received, in its order, or
is in the channel; and a free task can receive what is there, unless it says of a file that it has changed more often
in a row than can be counted. -/
theorem paced_of_moves {base now : Nat} (hbase : base * 5 < 2 ^ 64) {moves : List Move} {w : Watch}
    (h : (start now).afterAll? base moves = some w) :
    (∀ newer time older, w.log = newer ++ .started time :: older →
      ∃ receipt signal before, older = .received receipt signal :: before ∧
        receipt + Clock.sleep (delayOf base (signals before) signal) ≤ time) ∧
    (∀ newer later between earlier older,
      w.log = newer ++ .started later :: (between ++ .started earlier :: older) →
      ∃ receipt signal, .received receipt signal ∈ between) ∧
    (∀ since receipt signal before, w.log = since ++ .received receipt signal :: before →
      (∀ time, .started time ∉ since) → ∃ latest last older due, w.log = .received latest last :: older ∧
        due = latest + Clock.sleep (delayOf base (signals older) last) ∧ w.task.timer = some due ∧
        ∃ more w', w.afterAll? base more = some w' ∧ w'.log = .started (max w.now due) :: w.log) ∧
    w.sent = w.task.queue.reverse ++ signals w.log ∧
    (∀ signal rest, w.task.refreshing = none → w.task.queue = signal :: rest →
      (∀ path, signal = .changed path → changesInRow path (signals w.log) < 2 ^ 32) →
      ∃ w', w.after? base .receive = some w' ∧ w'.log = .received w.now signal :: w.log ∧ w'.task.queue = rest) := by
  have hgood := (good_start base now).afterAll h
  refine ⟨fun newer time older hlog => hgood.paced.exists_receipt hlog,
    fun newer later between earlier older hlog => ?_, fun since receipt signal before hlog hsince => ?_, hgood.sent,
    fun signal rest hfree hqueue hfew => hgood.exists_receive hbase hfree hqueue hfew⟩
  · obtain ⟨receipt, signal, before, hbetween, -⟩ := hgood.paced.exists_receipt hlog
    cases between with
    | nil => cases hbetween
    | cons e between =>
      obtain ⟨rfl, -⟩ := List.cons.inj hbetween
      exact ⟨receipt, signal, List.mem_cons_self⟩
  · obtain ⟨latest, last, older, hlatest⟩ := exists_latest_receipt hsince
    have hlog' : w.log = .received latest last :: older := hlog.trans hlatest
    have harmed : armed base w.log = some (latest + Clock.sleep (delayOf base (signals older) last)) := by
      rw [hlog', armed]
    exact ⟨latest, last, older, _, hlog', rfl, hgood.timer.trans harmed, hgood.exists_fire harmed⟩

/-- A file changes twice, and a refresh is asked for while one is on its way. -/
def burst (path : Path) : List Move :=
  [.send (.changed path), .receive, .wait 100, .send (.changed path), .receive, .wait 300, .fire 0, .send .requested,
    .wait 50, .land, .receive]

theorem paced_of_moves_burst :
    let a : Path := ⟨"/a/Cargo.toml"⟩
    300 * 5 < 2 ^ 64 ∧ ∃ w, (start 0).afterAll? 300 (burst a) = some w ∧
      w.log = [.received 450 .requested, .started 400, .received 100 (.changed a), .received 0 (.changed a)] ∧
      w.task.timer = some 750 ∧ 100 + Clock.sleep (delayOf 300 [.changed a] (.changed a)) ≤ 400 ∧
      ∃ more w', w.afterAll? 300 more = some w' ∧ w'.log = .started 750 :: w.log := by
  intro a
  have hbase : 300 * 5 < 2 ^ 64 := by decide
  have hrun : ((start 0).afterAll? 300 (burst a)).map (fun w => (w.now, w.log)) =
      some (450, [.received 450 .requested, .started 400, .received 100 (.changed a), .received 0 (.changed a)]) := by
    decide
  obtain ⟨w, hw, hseen⟩ := Option.map_eq_some_iff.1 hrun
  obtain ⟨hnow, hlog⟩ := Prod.mk.inj hseen
  obtain ⟨hstarts, -, harmed, -⟩ := paced_of_moves hbase hw
  obtain ⟨latest, last, older, due, hlog', hdue, htimer, more, w', hmore, hfired⟩ :=
    harmed [] 450 .requested _ hlog (fun _ h => absurd h List.not_mem_nil)
  obtain ⟨⟨rfl, rfl⟩, rfl⟩ : (450 = latest ∧ .requested = last) ∧ _ = older := by
    simpa using hlog.symm.trans hlog'
  obtain rfl : due = 750 := hdue.trans (by decide)
  obtain ⟨receipt, signal, before, hbefore, hpaced⟩ := hstarts [.received 450 .requested] 400 _ hlog
  obtain ⟨⟨rfl, rfl⟩, rfl⟩ : (100 = receipt ∧ .changed a = signal) ∧ _ = before := by simpa using hbefore
  rw [hnow] at hfired
  exact ⟨hbase, w, hw, hlog, htimer, hpaced, more, w', hmore, hfired⟩

/-- A refresh that is to wait longer than a sleep can last starts when the sleep ends, before its time. -/
theorem starts_early_after_longestSleep :
    let base := Clock.longestSleep + 1
    base * 5 < 2 ^ 64 ∧
      ∃ w, (start 0).afterAll? base [.send .requested, .receive, .wait Clock.longestSleep, .fire 0] = some w ∧
        w.log = [.started Clock.longestSleep, .received 0 .requested] ∧
        ¬ 0 + delayOf base [] .requested ≤ Clock.longestSleep := by
  refine ⟨by decide, _, rfl, ?_, ?_⟩ <;> decide

end Watch

end CrateYard.Debounce
