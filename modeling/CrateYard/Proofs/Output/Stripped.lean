import CrateYard.Text.Escape
import Mathlib.Data.List.Infix

/-! Control sequences that stripping leaves behind. It goes through a text once and takes out each sequence that it
meets. What stood on both sides of a sequence then stands together, and can be a sequence itself: one into which whole
sequences had been written. Such a sequence is left in the stripped text, and no other one is; it goes when the text is
stripped again. -/

namespace CrateYard.Text

/-- What ends a control sequence, behind its bracket: parameters and a letter. -/
inductive IsTail : List Char → Prop
  | letter {c : Char} : c.isAlpha = true → IsTail [c]
  | parameter {c : Char} {m : List Char} : isParameter c = true → IsTail m → IsTail (c :: m)

def IsSequence (q : List Char) : Prop :=
  ∃ m, IsTail m ∧ q = esc :: '[' :: m

/-- Stripping, place by place: a sequence that begins there is left out, and a character that begins none is kept. -/
inductive Strips : List Char → List Char → Prop
  | nil : Strips [] []
  | drop {q text kept : List Char} : IsSequence q → Strips text kept → Strips (q ++ text) kept
  | keep {c : Char} {text kept : List Char} : (∀ q, IsSequence q → ¬ q <+: c :: text) → Strips text kept →
      Strips (c :: text) (c :: kept)

/-- The text `s` is `p` with any number of whole sequences between each two of its characters. -/
inductive Woven : (p s : List Char) → Prop
  | last (c : Char) : Woven [c] [c]
  | next {c : Char} {p s : List Char} (between : List (List Char)) : (∀ q ∈ between, IsSequence q) → Woven p s →
      Woven (c :: p) (c :: (between.flatten ++ s))

variable {m m' q q' p s u text kept before after : List Char} {c : Char}

/-! The characters of a sequence. -/

theorem isParameter_esc : isParameter esc = false := by decide

theorem isAlpha_esc : esc.isAlpha = false := by decide

theorem not_isParameter_of_isAlpha (h : c.isAlpha = true) : isParameter c = false := by
  have hletter : 65 ≤ c.toNat := by
    have hcases : c.isUpper = true ∨ c.isLower = true := Bool.or_eq_true_iff.1 h
    rcases hcases with hupper | hlower
    · have hrange : 65 ≤ c.toNat ∧ c.toNat ≤ 90 := of_decide_eq_true hupper
      exact hrange.1
    · have hge : 97 ≤ c.toNat := of_decide_eq_true (Bool.and_eq_true_iff.1 hlower).1
      omega
  rw [Bool.eq_false_iff]
  intro hparameter
  simp only [isParameter, Char.isDigit, Bool.or_eq_true, Bool.and_eq_true, decide_eq_true_eq, UInt32.le_iff_toNat_le,
    ge_iff_le] at hparameter
  rcases hparameter with (hdigit | rfl) | rfl
  · change 48 ≤ c.toNat ∧ c.toNat ≤ 57 at hdigit
    omega
  · exact absurd hletter (by decide)
  · exact absurd hletter (by decide)

theorem ne_esc_of_isParameter (h : isParameter c = true) : c ≠ esc := by
  rintro rfl
  exact Bool.false_ne_true (isParameter_esc.symm.trans h)

theorem ne_esc_of_isAlpha (h : c.isAlpha = true) : c ≠ esc := by
  rintro rfl
  exact Bool.false_ne_true (isAlpha_esc.symm.trans h)

theorem IsTail.esc_notMem (h : IsTail m) : esc ∉ m := by
  induction h with
  | letter hc => simpa using (ne_esc_of_isAlpha hc).symm
  | parameter hc _ ih => exact List.not_mem_cons_of_ne_of_not_mem (ne_esc_of_isParameter hc).symm ih

/-- No tail goes on behind another one. -/
theorem IsTail.eq_of_prefix (h : IsTail m) (h' : IsTail m') (hpre : m' <+: m) : m' = m := by
  induction h generalizing m' with
  | @letter c hc =>
    cases h' with
    | letter hc' => rw [(List.cons_prefix_cons.1 hpre).1]
    | parameter hc' _ =>
      rw [(List.cons_prefix_cons.1 hpre).1] at hc'
      exact absurd hc' (by simp [not_isParameter_of_isAlpha hc])
  | @parameter c m hc _ ih =>
    cases h' with
    | letter hc' =>
      rw [(List.cons_prefix_cons.1 hpre).1] at hc'
      exact absurd hc (by simp [not_isParameter_of_isAlpha hc'])
    | parameter hc' hm' =>
      obtain ⟨rfl, hrest⟩ := List.cons_prefix_cons.1 hpre
      rw [ih hm' hrest]

theorem IsSequence.eq_of_prefix (h : IsSequence q) (h' : IsSequence q') (hpre : q' <+: q) : q' = q := by
  obtain ⟨m, hm, rfl⟩ := h
  obtain ⟨m', hm', rfl⟩ := h'
  rw [hm.eq_of_prefix hm' (List.cons_prefix_cons.1 (List.cons_prefix_cons.1 hpre).2).2]

theorem IsSequence.eq_nil_of_prefix (h : IsSequence q) (hpre : u ++ [esc] <+: q) : u = [] := by
  obtain ⟨m, hm, rfl⟩ := h
  cases u with
  | nil => rfl
  | cons c u =>
    have hmem : esc ∈ '[' :: m := (List.cons_prefix_cons.1 hpre).2.subset (by simp)
    have hbracket : esc ≠ '[' := by decide
    exact absurd hmem (List.not_mem_cons_of_ne_of_not_mem hbracket hm.esc_notMem)

/-! What stripping does behind the start of a sequence. The start is given up as soon as it cannot be the start of a
sequence, and the text behind it is stripped as if nothing were held. -/

theorem stripFrom_tail (h : IsTail m) (a b : Char) (held text : List Char) :
    stripFrom (a :: b :: held) (m ++ text) = stripSequences text := by
  induction h generalizing held with
  | @letter c hc =>
    simp [stripFrom, ne_esc_of_isAlpha hc, not_isParameter_of_isAlpha hc, hc, stripSequences]
  | @parameter c m hc _ ih =>
    simp only [List.cons_append, stripFrom, ne_esc_of_isParameter hc, hc, if_false, if_true]
    exact ih (held ++ [c])

theorem stripFrom_of_no_tail (h : ∀ m, IsTail m → ¬ m <+: text) (a b : Char) (held : List Char) :
    stripFrom (a :: b :: held) text = a :: b :: held ++ stripSequences text := by
  induction text generalizing held with
  | nil => simp [stripFrom, stripSequences]
  | cons c rest ih =>
    by_cases hesc : c = esc
    · simp [stripFrom, stripSequences, hesc]
    · by_cases hparameter : isParameter c = true
      · have hrest : ∀ m, IsTail m → ¬ m <+: rest := fun m hm hpre =>
          h (c :: m) (.parameter hparameter hm) (List.cons_prefix_cons.2 ⟨rfl, hpre⟩)
        have hheld := ih hrest (held ++ [c])
        simp only [stripFrom, hesc, hparameter, if_false, if_true, stripSequences] at hheld ⊢
        simpa using hheld
      · have hletter : ¬ c.isAlpha = true := fun hc => h [c] (.letter hc) (by simp)
        simp [stripFrom, stripSequences, hesc, hparameter, hletter]

theorem stripSequences_append (h : IsSequence q) (text : List Char) :
    stripSequences (q ++ text) = stripSequences text := by
  obtain ⟨m, hm, rfl⟩ := h
  have hbracket : '[' ≠ esc := by decide
  simp only [stripSequences, List.cons_append, stripFrom, hbracket, if_true, if_false, List.nil_append]
  exact stripFrom_tail hm esc '[' [] text

theorem stripSequences_cons (h : ∀ q, IsSequence q → ¬ q <+: c :: text) :
    stripSequences (c :: text) = c :: stripSequences text := by
  by_cases hesc : c = esc
  · subst hesc
    match text with
    | [] => simp [stripSequences, stripFrom]
    | d :: rest =>
      by_cases hd : d = '['
      · subst hd
        have hrest : ∀ m, IsTail m → ¬ m <+: rest := fun m hm hpre =>
          h _ ⟨m, hm, rfl⟩ (List.cons_prefix_cons.2 ⟨rfl, List.cons_prefix_cons.2 ⟨rfl, hpre⟩⟩)
        have hbracket : '[' ≠ esc := by decide
        simp only [stripSequences, stripFrom, hbracket, if_true, if_false, List.nil_append]
        exact stripFrom_of_no_tail hrest esc '[' []
      · by_cases hd' : d = esc
        · simp [stripSequences, stripFrom, hd']
        · simp [stripSequences, stripFrom, hd, hd']
  · simp [stripSequences, stripFrom, hesc]

theorem stripSequences_cons_of_ne (h : c ≠ esc) (text : List Char) :
    stripSequences (c :: text) = c :: stripSequences text := by
  refine stripSequences_cons fun q hq hpre => h ?_
  obtain ⟨m, -, rfl⟩ := hq
  exact (List.cons_prefix_cons.1 hpre).1.symm

theorem stripSequences_flatten {dropped : List (List Char)} (h : ∀ q ∈ dropped, IsSequence q) (text : List Char) :
    stripSequences (dropped.flatten ++ text) = stripSequences text := by
  induction dropped with
  | nil => rfl
  | cons q rest ih =>
    rw [List.flatten_cons, List.append_assoc, stripSequences_append (h q List.mem_cons_self),
      ih fun q hq => h q (List.mem_cons_of_mem _ hq)]

/-- An escape character begins anew, whatever is held. -/
theorem stripFrom_append_esc (held before after : List Char) :
    stripFrom held (before ++ esc :: after) = stripFrom held before ++ stripSequences (esc :: after) := by
  fun_induction stripFrom held before with
  | case1 held => simp [stripFrom, stripSequences]
  | case2 held rest ih => simp [stripFrom, ih]
  | case3 c rest hesc ih => simp [stripFrom, hesc, ih]
  | case4 rest a hesc ih =>
    rw [List.cons_append, stripFrom, if_neg hesc]
    exact ih
  | case5 c rest hesc a hbracket ih => simp [stripFrom, hesc, hbracket, ih]
  | case6 held c rest hesc hparameter hnil hone ih => simp [stripFrom, hesc, hparameter, ih]
  | case7 held c rest hesc hparameter hletter hnil hone ih => simp [stripFrom, hesc, hparameter, hletter, ih]
  | case8 held c rest hesc hparameter hletter hnil hone ih => simp [stripFrom, hesc, hparameter, hletter, ih]

theorem strips_stripSequences (text : List Char) : Strips text (stripSequences text) := by
  match text with
  | [] => exact .nil
  | c :: rest =>
    by_cases h : ∃ q, IsSequence q ∧ q <+: c :: rest
    · obtain ⟨q, hq, more, hmore⟩ := h
      have hless : more.length < rest.length + 1 := by
        obtain ⟨m, -, rfl⟩ := hq
        have := congrArg List.length hmore
        simp only [List.length_append, List.length_cons] at this
        omega
      rw [← hmore, stripSequences_append hq]
      exact .drop hq (strips_stripSequences more)
    · have hnone : ∀ q, IsSequence q → ¬ q <+: c :: rest := fun q hq hpre => h ⟨q, hq, hpre⟩
      rw [stripSequences_cons hnone]
      exact .keep hnone (strips_stripSequences rest)
termination_by text.length

/-! Where the kept characters come from. -/

namespace Strips

theorem exists_of_cons (h : Strips text (c :: kept)) :
    ∃ (dropped : List (List Char)) (rest : List Char), (∀ q ∈ dropped, IsSequence q) ∧
      text = dropped.flatten ++ c :: rest ∧ (∀ q, IsSequence q → ¬ q <+: c :: rest) ∧ Strips rest kept := by
  generalize hkept : c :: kept = all at h
  induction h with
  | nil => cases hkept
  | @drop q text all hq _ ih =>
    obtain ⟨dropped, rest, hdropped, rfl, hnone, hrest⟩ := ih hkept
    exact ⟨q :: dropped, rest, List.forall_mem_cons.2 ⟨hq, hdropped⟩, by simp, hnone, hrest⟩
  | keep hnone hrest =>
    obtain ⟨rfl, rfl⟩ := List.cons.inj hkept
    exact ⟨[], _, by simp, rfl, hnone, hrest⟩

theorem exists_of_append (h : Strips text (before ++ kept)) :
    ∃ front rest, text = front ++ rest ∧ Strips rest kept := by
  induction before generalizing text with
  | nil => exact ⟨[], text, rfl, h⟩
  | cons c before ih =>
    obtain ⟨dropped, rest, -, rfl, -, hrest⟩ := h.exists_of_cons
    obtain ⟨front, rest', rfl, hrest'⟩ := ih hrest
    exact ⟨dropped.flatten ++ c :: front, rest', by simp, hrest'⟩

/-- Characters that stand together when stripped are woven into the text, from a place where no sequence begins. -/
theorem exists_woven (h : Strips text (p ++ after)) (hp : p ≠ []) :
    ∃ (dropped : List (List Char)) (s rest : List Char), (∀ q ∈ dropped, IsSequence q) ∧
      text = dropped.flatten ++ (s ++ rest) ∧ Woven p s ∧ ∀ q, IsSequence q → ¬ q <+: s ++ rest := by
  induction p generalizing text with
  | nil => exact absurd rfl hp
  | cons c p ih =>
    obtain ⟨dropped, rest, hdropped, rfl, hnone, hrest⟩ := h.exists_of_cons
    by_cases hlast : p = []
    · exact ⟨dropped, [c], rest, hdropped, rfl, hlast ▸ .last c, hnone⟩
    · obtain ⟨between, s, more, hbetween, rfl, hs, -⟩ := ih hrest hlast
      refine ⟨dropped, c :: (between.flatten ++ s), more, hdropped, by simp, .next between hbetween hs, ?_⟩
      simpa using hnone

theorem length_le (h : Strips text kept) : kept.length ≤ text.length := by
  induction h with
  | nil => exact Nat.le_refl _
  | drop _ _ ih =>
    rw [List.length_append]
    omega
  | keep _ _ ih =>
    rw [List.length_cons, List.length_cons]
    omega

end Strips

/-! Woven texts. -/

namespace Woven

theorem ne_nil (h : Woven p s) : p ≠ [] := by
  cases h <;> simp

theorem stripSequences_append (h : Woven p s) (hp : esc ∉ p) (rest : List Char) :
    stripSequences (s ++ rest) = p ++ stripSequences rest := by
  induction h with
  | last c =>
    rw [List.mem_singleton] at hp
    exact stripSequences_cons_of_ne (Ne.symm hp) rest
  | @next c p s between hbetween _ ih =>
    rw [List.mem_cons, not_or] at hp
    rw [List.cons_append, stripSequences_cons_of_ne (Ne.symm hp.1), List.append_assoc, stripSequences_flatten hbetween,
      ih hp.2, List.cons_append]

/-- Where the woven text departs from the first one, it goes on with an escape character. -/
theorem eq_or_departs (h : Woven p s) : s = p ∨ ∃ u, u ≠ [] ∧ u.length < p.length ∧ u <+: p ∧ u ++ [esc] <+: s := by
  induction h with
  | last c => exact .inl rfl
  | @next c p s between hbetween hs ih =>
    match between with
    | [] =>
      rcases ih with rfl | ⟨u, hne, hlt, hu, hesc⟩
      · exact .inl rfl
      · refine .inr ⟨c :: u, by simp, ?_, List.cons_prefix_cons.2 ⟨rfl, hu⟩, List.cons_prefix_cons.2 ⟨rfl, hesc⟩⟩
        rw [List.length_cons, List.length_cons]
        omega
    | q :: more =>
      obtain ⟨m, -, rfl⟩ := hbetween q List.mem_cons_self
      have hp := List.length_pos_iff.2 hs.ne_nil
      refine .inr ⟨[c], by simp, ?_, by simp, by simp⟩
      simpa using hp

/-- No sequence begins where one begins that is torn apart by others. -/
theorem no_sequence_prefix (h : Woven q s) (hq : IsSequence q) (hs : s ≠ q) (hq' : IsSequence q') (rest : List Char) :
    ¬ q' <+: s ++ rest := by
  intro hpre
  obtain ⟨u, hne, hlt, hu, hesc⟩ := h.eq_or_departs.resolve_left hs
  have hesc' : u ++ [esc] <+: s ++ rest := hesc.trans (List.prefix_append s rest)
  rcases Nat.le_total q'.length (u ++ [esc]).length with hle | hle
  · rcases List.prefix_concat_iff.1 (List.prefix_of_prefix_length_le hpre hesc' hle) with heq | hshort
    · exact hne (hq'.eq_nil_of_prefix (heq ▸ List.prefix_refl _))
    · obtain rfl := hq.eq_of_prefix hq' (hshort.trans hu)
      have := hshort.length_le
      omega
  · exact hne (hq'.eq_nil_of_prefix (List.prefix_of_prefix_length_le hesc' hpre hle))

theorem infix_stripSequences (h : Woven q s) (hq : IsSequence q) (hs : s ≠ q) (hin : s <:+: text) :
    q <:+: stripSequences text := by
  obtain ⟨before, after, rfl⟩ := hin
  have hnone : ∀ q', IsSequence q' → ¬ q' <+: s ++ after := fun q' hq' => h.no_sequence_prefix hq hs hq' after
  obtain ⟨m, hm, rfl⟩ := hq
  have hesc : esc ∉ '[' :: m := List.not_mem_cons_of_ne_of_not_mem (by decide) hm.esc_notMem
  cases h with
  | @next _ p s between hbetween hwoven =>
    rw [List.cons_append] at hnone
    have hwhole : stripSequences (esc :: (between.flatten ++ s ++ after)) =
        esc :: '[' :: m ++ stripSequences after := by
      rw [stripSequences_cons hnone, List.append_assoc, stripSequences_flatten hbetween,
        hwoven.stripSequences_append hesc]
      rfl
    have hsplit : stripSequences (before ++ (esc :: (between.flatten ++ s)) ++ after) =
        stripSequences before ++ stripSequences (esc :: (between.flatten ++ s ++ after)) := by
      rw [List.append_assoc]
      exact stripFrom_append_esc [] before _
    refine ⟨stripSequences before, stripSequences after, ?_⟩
    rw [hsplit, hwhole, List.append_assoc]

end Woven

/-! The stripped text. -/

/-- A sequence stands in the stripped text exactly if it stood in the text with other sequences in between. -/
theorem infix_stripSequences_iff (hq : IsSequence q) :
    q <:+: stripSequences text ↔ ∃ s, Woven q s ∧ s ≠ q ∧ s <:+: text := by
  constructor
  · rintro ⟨before, after, heq⟩
    have hstrips := strips_stripSequences text
    rw [← heq, List.append_assoc] at hstrips
    obtain ⟨front, rest, rfl, hrest⟩ := hstrips.exists_of_append
    have hne : q ≠ [] := by
      obtain ⟨m, -, rfl⟩ := hq
      simp
    obtain ⟨dropped, s, more, -, rfl, hs, hnone⟩ := hrest.exists_woven hne
    refine ⟨s, hs, ?_, front ++ dropped.flatten, more, by simp⟩
    rintro rfl
    exact hnone s hq (List.prefix_append s more)
  · rintro ⟨s, hs, hne, hin⟩
    exact hs.infix_stripSequences hq hne hin

theorem stripSequences_eq_self_iff : stripSequences text = text ↔ ∀ q, IsSequence q → ¬ q <:+: text := by
  constructor
  · rintro heq q hq ⟨before, after, rfl⟩
    -- the text gets shorter by the sequence
    have hbefore := (strips_stripSequences before).length_le
    have hafter := (strips_stripSequences after).length_le
    obtain ⟨m, hm, rfl⟩ := hq
    have hsplit : stripSequences (before ++ (esc :: '[' :: m) ++ after) =
        stripSequences before ++ stripSequences after := by
      rw [List.append_assoc, ← stripSequences_append ⟨m, hm, rfl⟩ after]
      exact stripFrom_append_esc [] before ('[' :: m ++ after)
    rw [hsplit] at heq
    have hlength := congrArg List.length heq
    simp only [List.length_append, List.length_cons] at hlength
    omega
  · intro hnone
    induction text with
    | nil => rfl
    | cons c rest ih =>
      rw [stripSequences_cons fun q hq hpre => hnone q hq hpre.isInfix,
        ih fun q hq hin => hnone q hq (hin.trans (List.suffix_cons c rest).isInfix)]

/-- The sequences that stripping leaves are those that stood in the text with other sequences between their characters.
Stripping a second time changes nothing exactly if there was no such sequence in the text. -/
theorem sequences_left_by_strip (text : List Char) :
    (∀ q, IsSequence q → (q <:+: stripSequences text ↔ ∃ s, Woven q s ∧ s ≠ q ∧ s <:+: text)) ∧
    (stripSequences (stripSequences text) = stripSequences text ↔
      ∀ q s, IsSequence q → Woven q s → s <:+: text → s = q) := by
  refine ⟨fun q hq => infix_stripSequences_iff hq, ?_⟩
  rw [stripSequences_eq_self_iff]
  constructor
  · intro hnone q s hq hs hin
    by_contra hne
    exact hnone q hq ((infix_stripSequences_iff hq).2 ⟨s, hs, hne, hin⟩)
  · intro hwhole q hq hin
    obtain ⟨s, hs, hne, hin⟩ := (infix_stripSequences_iff hq).1 hin
    exact hne (hwhole q s hq hs hin)

/-- A reset stands between the escape character and the bracket of a colour: the colour is left. -/
theorem sequences_left_by_strip_torn :
    let colour := [esc, '[', '3', '1', 'm']
    let torn := [esc, esc, '[', '0', 'm', '[', '3', '1', 'm']
    IsSequence colour ∧ Woven colour torn ∧ torn ≠ colour ∧ colour <:+: stripSequences (torn ++ ['r', 'e', 'd']) ∧
      stripSequences (stripSequences (torn ++ ['r', 'e', 'd'])) ≠ stripSequences (torn ++ ['r', 'e', 'd']) := by
  intro colour torn
  have hcolour : IsSequence colour :=
    ⟨['3', '1', 'm'], .parameter (by decide) (.parameter (by decide) (.letter (by decide))), rfl⟩
  have hreset : IsSequence [esc, '[', '0', 'm'] := ⟨['0', 'm'], .parameter (by decide) (.letter (by decide)), rfl⟩
  have hwoven : Woven colour torn :=
    .next [[esc, '[', '0', 'm']] (by simpa using hreset)
      (.next [] (by simp) (.next [] (by simp) (.next [] (by simp) (.last 'm'))))
  have hne : torn ≠ colour := by decide
  have hin : torn <:+: torn ++ ['r', 'e', 'd'] := (List.prefix_append _ _).isInfix
  obtain ⟨hleft, hagain⟩ := sequences_left_by_strip (torn ++ ['r', 'e', 'd'])
  refine ⟨hcolour, hwoven, hne, (hleft colour hcolour).2 ⟨torn, hwoven, hne, hin⟩, fun heq => ?_⟩
  exact hne (hagain.1 heq colour torn hcolour hwoven hin)

end CrateYard.Text
