import CrateYard.Proofs.Debounce.Pace
import CrateYard.Settings
import Mathlib.Tactic.SplitIfs

/-! Delays for every base that a configuration can set. The factor is applied before the limit, so a base that is far
above the limit grows out of its word when a file changes again and again, and the task is gone. Up to then a delay is
no longer than the limit, no shorter than the base or the limit, and no shorter than the delays for fewer
repetitions. -/

namespace CrateYard

open Json (Value Record)

/-! What a configuration can set. -/

theorem Json.Record.of_defaulted {α : Type} {r : Record} {field : String} {read : Value → Option α} {default a : α}
    (h : r.defaulted field read default = some a) : a = default ∨ ∃ v, read v = some a := by
  unfold defaulted at h
  split at h
  · next v _ => exact .inr ⟨v, h⟩
  · exact .inl (Option.some_inj.1 h).symm

theorem Json.Value.lt_of_word64? {v : Value} {n : Nat} (h : v.word64? = some n) : n < 2 ^ 64 := by
  unfold word64? nat? at h
  split at h
  · split at h
    · next hlt =>
      obtain rfl := Option.some_inj.1 h
      exact hlt
    · cases h
  · cases h

theorem RefreshSettings.debounceMs_lt {v : Value} {s : RefreshSettings} (h : ofJson? v = some s) :
    s.debounceMs < 2 ^ 64 := by
  obtain ⟨r, -, h⟩ := Option.bind_eq_some_iff.1 h
  obtain ⟨timeout, -, h⟩ := Option.bind_eq_some_iff.1 h
  obtain ⟨ms, hms, h⟩ := Option.bind_eq_some_iff.1 h
  obtain rfl := Option.some_inj.1 h
  rcases Record.of_defaulted hms with rfl | ⟨v, hv⟩
  · exact (by decide : default.debounceMs < 2 ^ 64)
  · exact Value.lt_of_word64? hv

theorem Settings.debounceMs_lt {text : String} {s : Settings} (h : parse? text = some s) :
    s.refresh.debounceMs < 2 ^ 64 := by
  obtain ⟨v, -, h⟩ := Option.bind_eq_some_iff.1 h
  obtain ⟨r, -, h⟩ := Option.bind_eq_some_iff.1 h
  obtain ⟨cargo, -, h⟩ := Option.bind_eq_some_iff.1 h
  obtain ⟨rustc, -, h⟩ := Option.bind_eq_some_iff.1 h
  obtain ⟨build, -, h⟩ := Option.bind_eq_some_iff.1 h
  obtain ⟨refresh, hrefresh, h⟩ := Option.bind_eq_some_iff.1 h
  obtain ⟨depth, -, h⟩ := Option.bind_eq_some_iff.1 h
  obtain rfl := Option.some_inj.1 h
  rcases Record.of_defaulted hrefresh with rfl | ⟨v, hv⟩
  · exact (by decide : RefreshSettings.default.debounceMs < 2 ^ 64)
  · exact RefreshSettings.debounceMs_lt hv

namespace Debounce

variable {base repeats more ms ms' : Nat}

/-! Delays by the number of repetitions. -/

theorem one_le_factor (repeats : Nat) : 1 ≤ factor repeats := by
  unfold factor
  split_ifs <;> omega

theorem factor_mono (h : repeats ≤ more) : factor repeats ≤ factor more := by
  unfold factor
  split_ifs <;> omega

theorem delay?_eq_none_iff : delay? base repeats = none ↔ 2 ^ 64 ≤ base * factor repeats := by
  unfold delay?
  split_ifs with h
  · exact ⟨nofun, fun hle => absurd h (Nat.not_lt.2 hle)⟩
  · exact ⟨fun _ => Nat.not_lt.1 h, fun _ => rfl⟩

theorem delay?_eq_none_of_le (hle : repeats ≤ more) (h : delay? base repeats = none) : delay? base more = none := by
  rw [delay?_eq_none_iff] at h ⊢
  exact Nat.le_trans h (Nat.mul_le_mul_left base (factor_mono hle))

theorem delay?_bounds (h : delay? base repeats = some ms) : ms ≤ longestDelay ∧ min base longestDelay ≤ ms := by
  rw [eq_of_delay? h]
  have hbase : base ≤ base * factor repeats := Nat.le_mul_of_pos_right base (one_le_factor repeats)
  omega

theorem delay?_mono (hle : repeats ≤ more) (h : delay? base repeats = some ms) (h' : delay? base more = some ms') :
    ms ≤ ms' := by
  rw [eq_of_delay? h, eq_of_delay? h']
  have hgrows : base * factor repeats ≤ base * factor more := Nat.mul_le_mul_left base (factor_mono hle)
  omega

/-- From how many repetitions on the product does not fit, for each base of 64 bits. -/
theorem delay?_eq_none_iff_repeats (hbase : base < 2 ^ 64) :
    delay? base repeats = none ↔
      6 ≤ repeats ∧ 2 ^ 64 ≤ base * 2 ∨ 11 ≤ repeats ∧ 2 ^ 64 ≤ base * 3 ∨ 16 ≤ repeats ∧ 2 ^ 64 ≤ base * 4 ∨
        21 ≤ repeats ∧ 2 ^ 64 ≤ base * 5 := by
  rw [delay?_eq_none_iff]
  unfold factor
  split_ifs <;> omega

/-! A file that changes again and again. -/

def Task.receiveTimes (t : Task) (base now : Nat) (signal : Signal) (times : Nat) : Option Task :=
  (List.replicate times signal).foldlM (fun t signal => t.receive base now signal) t

theorem Task.receiveTimes_succ (t : Task) (base now : Nat) (signal : Signal) (times : Nat) :
    t.receiveTimes base now signal (times + 1) =
      (t.receiveTimes base now signal times).bind fun t => t.receive base now signal := by
  simp [receiveTimes, List.replicate_succ', List.foldlM_append]

/-- The task has counted the changes after the first one, and waits for the delay that they give. -/
theorem Task.receiveTimes_changed (base now : Nat) (path : Path) {repeats : Nat} (h : repeats < 2 ^ 32) :
    start.receiveTimes base now (.changed path) (repeats + 1) =
      (delay? base repeats).map fun ms =>
        { start with backoff := ⟨some path, repeats⟩, timer := some (now + Clock.sleep ms) } := by
  induction repeats with
  | zero =>
    have hfirst : Backoff.fresh.change? path = some ⟨some path, 0⟩ := rfl
    rw [receiveTimes_succ]
    simp only [receiveTimes, List.replicate_zero, List.foldlM_nil, Option.pure_def, Option.bind_some, receive]
    cases hdelay : delay? base 0 <;> simp [start, Backoff.receive?, hfirst, hdelay]
  | succ repeats ih =>
    have hsame : path.same path = true := Path.same_iff.2 rfl
    have hnext : (⟨some path, repeats⟩ : Backoff).change? path = some ⟨some path, repeats + 1⟩ := by
      have hfits : repeats + 1 < Nat.pow 2 32 := h
      simp [Backoff.change?, hsame, hfits]
    rw [receiveTimes_succ, ih (by omega)]
    cases hdelay : delay? base repeats with
    | none => rw [delay?_eq_none_of_le (Nat.le_succ repeats) hdelay, Option.map_none, Option.bind_none, Option.map_none]
    | some ms =>
      cases hdelay' : delay? base (repeats + 1) <;> simp [receive, Backoff.receive?, hnext, hdelay']

/-- The base of a configuration, multiplied by the factor, does not fit its word from some number of repetitions on if
it is large enough, and then a file that changes so often ends the task. A delay that there is lies between the base
and the limit, and there is one no longer for all fewer repetitions. -/
theorem delays_of_settings {text : String} {s : Settings} (h : Settings.parse? text = some s) (repeats : Nat) :
    (delay? s.refresh.debounceMs repeats = none ↔
      6 ≤ repeats ∧ 2 ^ 64 ≤ s.refresh.debounceMs * 2 ∨ 11 ≤ repeats ∧ 2 ^ 64 ≤ s.refresh.debounceMs * 3 ∨
        16 ≤ repeats ∧ 2 ^ 64 ≤ s.refresh.debounceMs * 4 ∨ 21 ≤ repeats ∧ 2 ^ 64 ≤ s.refresh.debounceMs * 5) ∧
    (repeats < 2 ^ 32 → ∀ now path,
      (Task.start.receiveTimes s.refresh.debounceMs now (.changed path) (repeats + 1) = none ↔
        delay? s.refresh.debounceMs repeats = none)) ∧
    ∀ ms, delay? s.refresh.debounceMs repeats = some ms →
      ms ≤ 15000 ∧ min s.refresh.debounceMs 15000 ≤ ms ∧
        ∀ fewer, fewer ≤ repeats → ∃ ms', delay? s.refresh.debounceMs fewer = some ms' ∧ ms' ≤ ms := by
  refine ⟨delay?_eq_none_iff_repeats (Settings.debounceMs_lt h), fun hfits now path => ?_, fun ms hms => ?_⟩
  · rw [Task.receiveTimes_changed _ now path hfits, Option.map_eq_none_iff]
  · obtain ⟨hlimit, hbase⟩ := delay?_bounds hms
    refine ⟨hlimit, hbase, fun fewer hle => ?_⟩
    cases hms' : delay? s.refresh.debounceMs fewer with
    | none =>
      rw [delay?_eq_none_of_le hle hms'] at hms
      cases hms
    | some ms' => exact ⟨ms', rfl, delay?_mono hle hms' hms⟩

/-- A base of half a word, and nothing else. -/
def halfWord : String :=
  "\x7b\"refresh\": \x7b\"debounceMs\": 9223372036854775808\x7d\x7d"

/-- Six changes of a file lead to delays of fifteen seconds, and the seventh ends the task. -/
theorem delays_of_settings_halfWord :
    let s : Settings := { Settings.default with refresh := ⟨120, 9223372036854775808⟩ }
    Settings.parse? halfWord = some s ∧ delay? s.refresh.debounceMs 5 = some 15000 ∧
      delay? s.refresh.debounceMs 6 = none ∧
      ∀ now path, Task.start.receiveTimes s.refresh.debounceMs now (.changed path) 7 = none := by
  intro s
  have hparse : Settings.parse? halfWord = some s := by decide
  obtain ⟨hnone, hgone, -⟩ := delays_of_settings hparse 6
  have hsixth : delay? s.refresh.debounceMs 6 = none := hnone.2 (.inl ⟨by decide, by decide⟩)
  exact ⟨hparse, by decide, hsixth, fun now path => (hgone (by decide) now path).2 hsixth⟩

end Debounce

end CrateYard
