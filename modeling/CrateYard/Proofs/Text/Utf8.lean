import CrateYard.Text.Utf8
import Mathlib.Algebra.Order.Ring.Nat
import Mathlib.Tactic.Common

/-! Decoding around bytes below 0x80. Such a byte begins no longer sequence and goes on with none: it is read as the
character that it is, and what stands before it and behind it is read as if it stood alone. All other bytes are read as
characters from U+0080 on. -/

namespace CrateYard.Text.Utf8

namespace Pending

/-- The least number that a sequence may come to. -/
def first (p : Pending) : Nat :=
  (p.bits * 64 + (p.low - 0x80)) * 64 ^ (p.left - 1)

/-- A bound on the numbers that a sequence may come to. -/
def bound (p : Pending) : Nat :=
  (p.bits * 64 + (p.high - 0x80) + 1) * 64 ^ (p.left - 1)

/-- However a sequence goes on, it does so with bytes from 0x80 on, and comes to the number of a character that is no
surrogate and needs more than one byte. -/
structure Sound (p : Pending) : Prop where
  left : 0 < p.left
  low : 0x80 ≤ p.low
  range : 0x80 ≤ p.first ∧ p.bound ≤ 0xD800 ∨ 0xE000 ≤ p.first ∧ p.bound ≤ 0x110000

end Pending

/-- The state between two bytes: a sequence that has begun is sound. -/
def Good (state : Option Pending) : Prop :=
  ∀ p ∈ state, p.Sound

variable {b : UInt8} {p : Pending} {state : Option Pending} {bytes : List UInt8}

theorem good_none : Good none :=
  nofun

theorem toNat_ofNat {n : Nat} (h : n < 0xD800 ∨ 0xE000 ≤ n ∧ n < 0x110000) : (Char.ofNat n).toNat = n := by
  have hvalid : n.isValidChar := by
    unfold Nat.isValidChar
    omega
  rw [Char.ofNat, dif_pos hvalid]
  rfl

/-- A byte where a sequence may begin is a character, or begins a sequence, or is no part of any. -/
theorem begin_cases (b : UInt8) :
    b.toNat < 0x80 ∧ begin b = ([Char.ofNat b.toNat], none) ∨
      (∃ p, p.Sound ∧ begin b = ([], some p)) ∨ begin b = ([replacement], none) := by
  simp only [begin, Bool.and_eq_true, decide_eq_true_eq]
  split_ifs with hascii
  · exact .inl ⟨hascii, rfl⟩
  case neg => exact .inr (.inr rfl)
  all_goals
    refine .inr (.inl ⟨_, ?_, rfl⟩)
    constructor <;> simp only [Pending.first, Pending.bound] <;> omega

theorem begin_of_lt (h : b.toNat < 0x80) : begin b = ([Char.ofNat b.toNat], none) := by
  simp [begin, h]

theorem Pending.Sound.taken (hp : p.Sound) (hlow : p.low ≤ b.toNat) (hhigh : b.toNat ≤ p.high) (hleft : p.left ≠ 1) :
    Sound ⟨p.bits * 64 + (b.toNat - 0x80), p.left - 1, 0x80, 0xBF⟩ := by
  obtain ⟨n, hn⟩ : ∃ n, p.left = n + 2 := ⟨p.left - 2, by have := hp.left; omega⟩
  have hfirst : p.first ≤ (p.bits * 64 + (b.toNat - 0x80)) * 64 ^ (n + 1) := by
    rw [first, hn]
    exact Nat.mul_le_mul_right _ (by omega)
  have hbound : (p.bits * 64 + (b.toNat - 0x80) + 1) * 64 ^ (n + 1) ≤ p.bound := by
    rw [bound, hn]
    exact Nat.mul_le_mul_right _ (by omega)
  refine ⟨by simp only [hn]; omega, Nat.le_refl _, ?_⟩
  have hrange := hp.range
  rw [Nat.pow_succ] at hfirst hbound
  simp only [first, bound, hn, Nat.reduceSub]
  grind

/-- A byte ends a sequence or goes on with it, or it stands behind a part that is no text. -/
theorem step_cases (hp : p.Sound) (b : UInt8) :
    (∃ c : Char, 0x80 ≤ c.toNat ∧ step (some p) b = ([c], none)) ∨
      (∃ q, q.Sound ∧ step (some p) b = ([], some q)) ∨
      step (some p) b = (replacement :: (begin b).1, (begin b).2) := by
  simp only [step, Bool.and_eq_true, decide_eq_true_eq]
  split_ifs with htaken hlast
  · refine .inl ⟨_, ?_, rfl⟩
    have hrange := hp.range
    simp only [Pending.first, Pending.bound, hlast, Nat.sub_self, Nat.pow_zero, Nat.mul_one] at hrange
    rw [toNat_ofNat (by omega)]
    omega
  · exact .inr (.inl ⟨_, hp.taken htaken.1 htaken.2 hlast, rfl⟩)
  · exact .inr (.inr rfl)

theorem decodeFrom_cons (state : Option Pending) (b : UInt8) (bytes : List UInt8) :
    decodeFrom state (b :: bytes) = (step state b).1 ++ decodeFrom (step state b).2 bytes := by
  rw [decodeFrom]

theorem good_begin (b : UInt8) : Good (begin b).2 := by
  rcases begin_cases b with ⟨-, h⟩ | ⟨p, hp, h⟩ | h <;> rw [h]
  · exact good_none
  · rintro _ ⟨⟩
    exact hp
  · exact good_none

theorem good_step (h : Good state) (b : UInt8) : Good (step state b).2 := by
  cases state with
  | none => exact good_begin b
  | some p =>
    rcases step_cases (h p rfl) b with ⟨c, -, hstep⟩ | ⟨q, hq, hstep⟩ | hstep <;> rw [hstep]
    · exact good_none
    · rintro _ ⟨⟩
      exact hq
    · exact good_begin b

/-- A character that is read is a byte itself, or beyond ASCII. -/
def ReadFrom (bytes : List UInt8) (c : Char) : Prop :=
  (∃ b ∈ bytes, b.toNat < 0x80 ∧ c = Char.ofNat b.toNat) ∨ 0x80 ≤ c.toNat

theorem readFrom_replacement (bytes : List UInt8) : ReadFrom bytes replacement :=
  .inr (by decide)

theorem readFrom_begin {c : Char} (hc : c ∈ (begin b).1) : ReadFrom (b :: bytes) c := by
  rcases begin_cases b with ⟨hlow, h⟩ | ⟨p, -, h⟩ | h <;> rw [h] at hc
  · exact .inl ⟨b, List.mem_cons_self, hlow, List.mem_singleton.1 hc⟩
  · cases hc
  · rw [List.mem_singleton.1 hc]
    exact readFrom_replacement _

theorem readFrom_step (h : Good state) {c : Char} (hc : c ∈ (step state b).1) : ReadFrom (b :: bytes) c := by
  cases state with
  | none => exact readFrom_begin hc
  | some p =>
    rcases step_cases (h p rfl) b with ⟨d, hd, hstep⟩ | ⟨q, -, hstep⟩ | hstep <;> rw [hstep] at hc
    · rw [List.mem_singleton.1 hc]
      exact .inr hd
    · cases hc
    · rcases List.mem_cons.1 hc with rfl | hc
      · exact readFrom_replacement _
      · exact readFrom_begin hc

theorem readFrom_decodeFrom (h : Good state) {c : Char} (hc : c ∈ decodeFrom state bytes) : ReadFrom bytes c := by
  induction bytes generalizing state with
  | nil =>
    cases state with
    | none => cases hc
    | some p =>
      rw [List.mem_singleton.1 hc]
      exact readFrom_replacement _
  | cons b bytes ih =>
    rw [decodeFrom_cons] at hc
    rcases List.mem_append.1 hc with hc | hc
    · exact readFrom_step h hc
    · exact (ih (good_step h b) hc).imp_left fun ⟨d, hd, hself⟩ => ⟨d, List.mem_cons_of_mem b hd, hself⟩

theorem exists_decodeFrom_some (hp : p.Sound) (bytes : List UInt8) :
    ∃ c more, decodeFrom (some p) bytes = c :: more ∧ 0x80 ≤ c.toNat := by
  induction bytes generalizing p with
  | nil => exact ⟨replacement, [], rfl, by decide⟩
  | cons b bytes ih =>
    rw [decodeFrom_cons]
    rcases step_cases hp b with ⟨c, hc, h⟩ | ⟨q, hq, h⟩ | h <;> rw [h]
    · exact ⟨c, _, rfl, hc⟩
    · exact ih hq
    · exact ⟨replacement, _, rfl, by decide⟩

theorem exists_decode_cons (b : UInt8) (bytes : List UInt8) :
    ∃ c more, decode (b :: bytes) = c :: more ∧ (b.toNat < 0x80 ∧ c = Char.ofNat b.toNat ∨ 0x80 ≤ c.toNat) := by
  rw [decode, decodeFrom_cons, step]
  rcases begin_cases b with ⟨hlow, h⟩ | ⟨p, hp, h⟩ | h <;> rw [h]
  · exact ⟨_, _, rfl, .inl ⟨hlow, rfl⟩⟩
  · obtain ⟨c, more, hmore, hc⟩ := exists_decodeFrom_some hp bytes
    exact ⟨c, more, hmore, .inr hc⟩
  · exact ⟨_, _, rfl, .inr (by decide)⟩

theorem decode_eq_nil_iff : decode bytes = [] ↔ bytes = [] := by
  cases bytes with
  | nil => exact iff_of_true rfl rfl
  | cons b bytes =>
    obtain ⟨c, more, h, -⟩ := exists_decode_cons b bytes
    rw [h]
    exact iff_of_false (List.cons_ne_nil c more) (List.cons_ne_nil b bytes)

/-- A byte below 0x80 ends what has begun, and is read as itself. -/
theorem decodeFrom_append_cons (h : Good state) (before after : List UInt8) (hb : b.toNat < 0x80) :
    decodeFrom state (before ++ b :: after) = decodeFrom state before ++ Char.ofNat b.toNat :: decode after := by
  induction before generalizing state with
  | nil =>
    cases state with
    | none => simp [decodeFrom, step, begin_of_lt hb, decode]
    | some p =>
      have hnot : ¬ p.low ≤ b.toNat := by have := (h p rfl).low; omega
      simp [decodeFrom, step, begin_of_lt hb, decode, hnot]
  | cons c before ih =>
    rw [List.cons_append, decodeFrom_cons, decodeFrom_cons, ih (good_step h c), List.append_assoc]

theorem decode_append_cons (before after : List UInt8) (hb : b.toNat < 0x80) :
    decode (before ++ b :: after) = decode before ++ Char.ofNat b.toNat :: decode after :=
  decodeFrom_append_cons good_none before after hb

end CrateYard.Text.Utf8
