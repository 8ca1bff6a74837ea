import CrateYard.Text.Blank
import CrateYard.Text.Split
import Mathlib.Data.List.DropRight

/-! How a text is laid out. White space around a part is cut off without a trace, and the lines of a text are found
again whichever way they end. -/

namespace CrateYard.Text

def AllBlank (text : List Char) : Prop :=
  ∀ c ∈ text, isBlank c = true

instance (text : List Char) : Decidable (AllBlank text) :=
  List.decidableBAll _ text

/-- No white space at either end. -/
structure IsTrimmed (text : List Char) : Prop where
  first : ∀ c ∈ text.head?, isBlank c = false
  last : ∀ c ∈ text.getLast?, isBlank c = false

/-- The text, with white space before and behind it. -/
def Padded (text padded : List Char) : Prop :=
  ∃ before after, AllBlank before ∧ AllBlank after ∧ padded = before ++ text ++ after

variable {text padded before after line : List Char}

/-! White space around a part. -/

theorem AllBlank.notMem {c : Char} (h : AllBlank text) (hc : isBlank c = false) : c ∉ text :=
  fun hmem => by simp [h c hmem] at hc

theorem trimStart_append (h : AllBlank before) (text : List Char) : trimStart (before ++ text) = trimStart text :=
  List.dropWhile_append_of_pos h

theorem trimEnd_append (text : List Char) (h : AllBlank after) : trimEnd (text ++ after) = trimEnd text := by
  rw [trimEnd, List.reverse_append, List.dropWhile_append_of_pos fun c hc => h c (List.mem_reverse.1 hc), trimEnd]

theorem Padded.trim_eq (h : Padded text padded) : trim padded = trim text := by
  obtain ⟨before, after, hbefore, hafter, rfl⟩ := h
  rw [trim, List.append_assoc, trimStart_append hbefore, trimStart, List.dropWhile_append]
  split
  · next hblank =>
    have hstart : trimStart text = [] := List.isEmpty_iff.1 hblank
    rw [trim, hstart, List.dropWhile_eq_nil_iff.2 hafter]
  · exact trimEnd_append _ hafter

theorem Padded.notMem {c : Char} (h : Padded text padded) (hc : isBlank c = false) (htext : c ∉ text) : c ∉ padded := by
  obtain ⟨before, after, hbefore, hafter, rfl⟩ := h
  simp [hbefore.notMem hc, htext, hafter.notMem hc]

theorem IsTrimmed.trim_eq (h : IsTrimmed text) : trim text = text := by
  have hstart : trimStart text = text := by
    cases text with
    | nil => rfl
    | cons c rest => exact List.dropWhile_cons_of_neg (by simp [h.first c rfl])
  rw [trim, hstart]
  exact List.rdropWhile_eq_self_iff.2 fun hne => by simp [h.last _ (List.getLast?_eq_some_getLast hne)]

theorem trim_append_rtakeWhile (text : List Char) :
    trim text ++ (trimStart text).rtakeWhile isBlank = trimStart text :=
  List.rdropWhile_append_rtakeWhile

theorem isTrimmed_trim (text : List Char) : IsTrimmed (trim text) := by
  refine ⟨fun c hc => ?_, fun c hc => ?_⟩
  · have hstart : (text.dropWhile isBlank).head? = some c := by
      rw [← trimStart, ← trim_append_rtakeWhile, List.head?_append, hc]
      rfl
    have hfirst := List.head?_dropWhile_not isBlank text
    rwa [hstart] at hfirst
  · obtain ⟨hne, rfl⟩ := List.mem_getLast?_eq_getLast hc
    exact Bool.eq_false_iff.2 (List.rdropWhile_last_not isBlank _ hne)

theorem padded_trim (text : List Char) : Padded (trim text) text := by
  refine ⟨text.takeWhile isBlank, (trimStart text).rtakeWhile isBlank, fun c => List.mem_takeWhile_imp,
    fun c => List.mem_rtakeWhile_imp, ?_⟩
  rw [List.append_assoc, trim_append_rtakeWhile]
  exact List.takeWhile_append_dropWhile.symm

theorem trim_eq_iff : trim padded = text ↔ Padded text padded ∧ IsTrimmed text := by
  constructor
  · rintro rfl
    exact ⟨padded_trim padded, isTrimmed_trim padded⟩
  · rintro ⟨hpadded, htrimmed⟩
    rw [hpadded.trim_eq, htrimmed.trim_eq]

theorem dropSuffix?_eq_some_iff {tail : List Char} : dropSuffix? tail text = some before ↔ text = before ++ tail := by
  rw [dropSuffix?]
  constructor
  · intro h
    split at h
    · next hsuffix =>
      obtain ⟨front, rfl⟩ := List.isSuffixOf_iff_suffix.1 hsuffix
      simpa using h
    · cases h
  · rintro rfl
    rw [if_pos (List.isSuffixOf_iff_suffix.2 (List.suffix_append _ _))]
    simp

/-! Lines and their ends. -/

/-- A text of the given lines. Each of them is ended by a line feed, or by a carriage return and a line feed; the last
one need not be ended, if there is anything in it. -/
inductive Laid : List (List Char) → List Char → Prop
  | nil : Laid [] []
  | last {line : List Char} (hline : '\n' ∉ line) (hne : line ≠ []) : Laid [line] line
  | feed {line text : List Char} {rest : List (List Char)} (hline : '\n' ∉ line) (h : Laid rest text) :
      Laid (line :: rest) (line ++ '\n' :: text)
  | returnFeed {line text : List Char} {rest : List (List Char)} (hline : '\n' ∉ line) (h : Laid rest text) :
      Laid (line :: rest) (line ++ '\r' :: '\n' :: text)

theorem lines_of_notMem (hline : '\n' ∉ line) (hne : line ≠ []) : lines line = [line] := by
  simp [lines, split_of_notMem hline, hne]

theorem lines_append_cons (hline : '\n' ∉ line) (text : List Char) :
    lines (line ++ '\n' :: text) = (dropSuffix? ['\r'] line).getD line :: lines text := by
  obtain ⟨piece, more, hpieces⟩ := List.exists_cons_of_ne_nil (split_ne_nil '\n' text)
  simp only [lines, split_append_cons, split_of_notMem hline, hpieces, List.singleton_append, List.dropLast_cons_cons,
    List.getLast?_cons_cons, List.map_cons]
  split
  · split <;> rfl
  · rfl

/-- Whichever way a line ends, it is read as it is, or without a carriage return at its end. -/
theorem Laid.forall₂_lines {lines' : List (List Char)} (h : Laid lines' text) :
    List.Forall₂ (fun line read => line = read ∨ line = read ++ ['\r']) lines' (lines text) := by
  induction h with
  | nil => exact .nil
  | last hline hne =>
    rw [lines_of_notMem hline hne]
    exact .cons (.inl rfl) .nil
  | @feed line text rest hline _ ih =>
    rw [lines_append_cons hline]
    refine .cons ?_ ih
    cases hreturn : dropSuffix? ['\r'] line with
    | none => exact .inl rfl
    | some front => exact .inr (dropSuffix?_eq_some_iff.1 hreturn)
  | @returnFeed line text rest hline _ ih =>
    have hreturn : dropSuffix? ['\r'] (line ++ ['\r']) = some line := dropSuffix?_eq_some_iff.2 rfl
    rw [List.append_cons, lines_append_cons (by simp [hline]), hreturn]
    exact .cons (.inl rfl) ih

theorem laid_lines (text : List Char) : Laid (lines text) text := by
  induction hn : text.length using Nat.strong_induction_on generalizing text with
  | _ n ih =>
    subst hn
    cases hsplit : splitOnce '\n' text with
    | none =>
      have hline := splitOnce_eq_none_iff.1 hsplit
      by_cases hne : text = []
      · subst hne
        exact .nil
      · rw [lines_of_notMem hline hne]
        exact .last hline hne
    | some parts =>
      obtain ⟨line, rest⟩ := parts
      obtain ⟨rfl, hline⟩ := splitOnce_eq_some hsplit
      have hrest : Laid (lines rest) rest := ih rest.length (by simp; omega) rest rfl
      rw [lines_append_cons hline]
      cases hreturn : dropSuffix? ['\r'] line with
      | none => exact .feed hline hrest
      | some front =>
        obtain rfl := dropSuffix?_eq_some_iff.1 hreturn
        rw [List.append_assoc]
        exact .returnFeed (fun hmem => hline (List.mem_append_left _ hmem)) hrest

end CrateYard.Text
