import CrateYard.Json.Reader
import Mathlib.Data.List.Basic

/-! The characters of a JSON text. Between lexemes there may be white space, and inside a string a control character is
spelled by an escape. So a text that is a value has no control character but the three that are white space, however
deep it nests and also in the parts that a reader skips. -/

namespace CrateYard.Json

/-- A control character that is no white space of JSON. -/
def IsControl (c : Char) : Prop :=
  c.toNat < 0x20 ∧ c ≠ '\t' ∧ c ≠ '\n' ∧ c ≠ '\r'

theorem IsControl.ne {c d : Char} (h : IsControl c) (hd : 0x20 ≤ d.toNat) : c ≠ d := by
  rintro rfl
  exact absurd h.1 (Nat.not_lt.2 hd)

namespace Lexer

variable {s s' : State} {c : Char} {tokens : List Token}

theorem extend?_of_isControl (h : IsControl c) (d : Digits) : d.extend? c = none := by
  have hdigit : Digits.digit? c = none := by
    have hlow := h.1
    rw [Digits.digit?, dif_neg (by omega)]
  have hdot : c ≠ '.' := h.ne (by decide)
  have he : c ≠ 'e' ∧ c ≠ 'E' := ⟨h.ne (by decide), h.ne (by decide)⟩
  have hsign : c ≠ '+' ∧ c ≠ '-' := ⟨h.ne (by decide), h.ne (by decide)⟩
  rw [Digits.extend?, hdigit]
  cases d.place <;> simp [hdot, he, hsign]

theorem begin?_of_isControl (h : IsControl c) (tokens : List Token) : begin? tokens c = none := by
  unfold begin?
  split
  case h_2 => exact absurd rfl h.2.2.1
  case h_3 => exact absurd rfl h.2.1
  case h_4 => exact absurd rfl h.2.2.2
  case h_16 => rw [extend?_of_isControl h, Option.map_none]
  all_goals exact absurd rfl (h.ne (by decide))

theorem escaped?_of_isControl (h : IsControl c) : escaped? c = none := by
  unfold escaped?
  split
  case h_9 => rfl
  all_goals exact absurd rfl (h.ne (by decide))

theorem hexDigit?_of_isControl (h : IsControl c) : hexDigit? c = none := by
  have hlow := h.1
  rw [hexDigit?, if_neg (by omega), if_neg (by omega), if_neg (by omega)]

/-- What is still to come of a word holds no control character. -/
def Mode.IsSpelled : Mode → Prop
  | .word left _ => ∀ c ∈ left, ¬ IsControl c
  | _ => True

/-- No mode takes a control character: none ends a lexeme, and none begins one. -/
theorem step_of_isControl (hs : s.mode.IsSpelled) (h : IsControl c) : step s c = none := by
  unfold step
  cases hm : s.mode with
  | between => exact begin?_of_isControl h _
  | word left v =>
    rw [hm] at hs
    cases left with
    | nil => exact begin?_of_isControl h _
    | cons w left =>
      have hne : c ≠ w := by
        rintro rfl
        exact hs c List.mem_cons_self h
      exact if_neg hne
  | string p =>
    have hquote : c ≠ '"' := h.ne (by decide)
    have hslash : c ≠ '\\' := h.ne (by decide)
    have hlow := h.1
    simp [hquote, hslash, hlow]
  | escape p =>
    have hu : c ≠ 'u' := h.ne (by decide)
    simp [hu, escaped?_of_isControl h]
  | hex p left unit => simp [hexDigit?_of_isControl h]
  | number d =>
    simp only [extend?_of_isControl h d]
    cases d.number? with
    | none => rfl
    | some n => exact begin?_of_isControl h _

theorem isSpelled_begin? (h : begin? tokens c = some s) : s.mode.IsSpelled := by
  have hword : ∀ {left : List Char}, (∀ w ∈ left, 0x20 ≤ w.toNat) → ∀ w ∈ left, ¬ IsControl w :=
    fun hleft w hw hcontrol => absurd hcontrol.1 (Nat.not_lt.2 (hleft w hw))
  unfold begin? at h
  split at h
  case h_12 | h_13 | h_14 =>
    cases h
    exact hword (by simp)
  case h_16 =>
    obtain ⟨d, -, rfl⟩ := Option.map_eq_some_iff.1 h
    trivial
  all_goals
    cases h
    trivial

theorem isSpelled_step (hs : s.mode.IsSpelled) (h : step s c = some s') : s'.mode.IsSpelled := by
  unfold step at h
  cases hm : s.mode with
  | between =>
    simp only [hm] at h
    exact isSpelled_begin? h
  | word left v =>
    rw [hm] at hs
    simp only [hm] at h
    cases left with
    | nil => exact isSpelled_begin? h
    | cons w left =>
      simp only at h
      split at h
      · split at h
        · cases h
          trivial
        · cases h
          exact fun d hd => hs d (List.mem_cons_of_mem w hd)
      · cases h
  | string p =>
    simp only [hm] at h
    split at h
    · cases h
      trivial
    · split at h
      · cases h
        trivial
      · split at h
        · cases h
        · cases h
          trivial
  | escape p =>
    simp only [hm] at h
    split at h
    · cases h
      trivial
    · obtain ⟨e, -, rfl⟩ := Option.map_eq_some_iff.1 h
      trivial
  | hex p left unit =>
    simp only [hm] at h
    obtain ⟨n, -, rfl⟩ := Option.map_eq_some_iff.1 h
    cases left <;> trivial
  | number d =>
    simp only [hm] at h
    split at h
    · cases h
      trivial
    · obtain ⟨n, -, hn⟩ := Option.bind_eq_some_iff.1 h
      exact isSpelled_begin? hn

theorem not_isControl_of_foldlM (hs : s.mode.IsSpelled) {text : List Char} (h : text.foldlM step s = some s') :
    ∀ c ∈ text, ¬ IsControl c := by
  induction text generalizing s with
  | nil => exact fun c hc => absurd hc List.not_mem_nil
  | cons d rest ih =>
    rw [List.foldlM_cons] at h
    obtain ⟨u, hu, hrest⟩ := Option.bind_eq_some_iff.1 h
    intro c hc
    rcases List.mem_cons.1 hc with rfl | hc
    · intro hcontrol
      rw [step_of_isControl hs hcontrol] at hu
      cases hu
    · exact ih (isSpelled_step hs hu) hrest c hc

end Lexer

theorem Token.not_isControl_of_ofText? {text : List Char} {tokens : List Token} (h : ofText? text = some tokens) :
    ∀ c ∈ text, ¬ IsControl c := by
  obtain ⟨s, hs, -⟩ := Option.bind_eq_some_iff.1 h
  exact Lexer.not_isControl_of_foldlM (s := ⟨.between, []⟩) trivial hs

theorem Value.not_isControl_of_parse? {text : String} {v : Value} (h : parse? text = some v) :
    ∀ c ∈ text.toList, ¬ IsControl c := by
  obtain ⟨tokens, htokens, -⟩ := Option.bind_eq_some_iff.1 h
  exact Token.not_isControl_of_ofText? htokens

end CrateYard.Json
