import CrateYard.Output.Diagnostic
import Mathlib.Data.List.Infix
import Mathlib.Data.List.TakeWhile

/-! The grammar of diagnostics in plain text. A text is read as a diagnostic exactly if it is one that is written out:
its level, its code in brackets, if it has one, and its message. What is read can be written out again, so nothing but
the level, the code and the message is in the text. Summaries have the form of diagnostics and a grammar of their own. -/

namespace CrateYard

namespace Text

variable {text rest head number : List Char}

theorem dropPrefix?_eq_some_iff : dropPrefix? head text = some rest ↔ text = head ++ rest := by
  induction head generalizing text with
  | nil => simp [dropPrefix?]
  | cons h head ih =>
    cases text with
    | nil => simp [dropPrefix?]
    | cons c text =>
      rw [dropPrefix?]
      by_cases hc : h = c
      · rw [if_pos hc, ih, hc]
        simp
      · rw [if_neg hc]
        simp [Ne.symm hc]

theorem isSome_dropPrefix?_iff : (dropPrefix? head text).isSome = true ↔ head <+: text := by
  rw [Option.isSome_iff_exists]
  constructor
  · rintro ⟨rest, h⟩
    exact ⟨rest, (dropPrefix?_eq_some_iff.1 h).symm⟩
  · rintro ⟨rest, h⟩
    exact ⟨rest, dropPrefix?_eq_some_iff.2 h.symm⟩

/-- Decimal digits, at least one. -/
def IsNumber (text : List Char) : Prop :=
  text ≠ [] ∧ ∀ c ∈ text, isDecimal c = true

def firstLine (text : List Char) : List Char :=
  text.takeWhile (· ≠ '\n')

theorem takeWhile_and_dropWhile {p : Char → Bool} {c : Char} (hrow : ∀ d ∈ head, p d = true) (hc : p c = false)
    (rest : List Char) :
    (head ++ c :: rest).takeWhile p = head ∧ (head ++ c :: rest).dropWhile p = c :: rest := by
  constructor
  · rw [List.takeWhile_append_of_pos hrow, List.takeWhile_cons_of_neg (by simp [hc]), List.append_nil]
  · rw [List.dropWhile_append_of_pos hrow, List.dropWhile_cons_of_neg (by simp [hc])]

end Text

namespace Output

open Text (dropPrefix? dropPrefix?_eq_some_iff isSome_dropPrefix?_iff IsNumber firstLine takeWhile_and_dropWhile)

variable {text body rest : List Char} {d : Diagnostic}

/-- The word for a level in front of a diagnostic. -/
def Level.word : Level → List Char
  | .error => "error".toList
  | .warning => "warning".toList

def codeText : Option String → List Char
  | none => []
  | some code => '[' :: code.toList ++ [']']

/-- A diagnostic on one line: its level, its code in brackets, and its message. -/
def Diagnostic.plainText (d : Diagnostic) : List Char :=
  d.level.word ++ codeText d.code ++ ": ".toList ++ d.message.toList

/-- The diagnostic can be written on one line, and nothing else is known of it. -/
structure Diagnostic.IsPlain (d : Diagnostic) : Prop where
  code : ∀ code, d.code = some code → code.toList ≠ [] ∧ ∀ c ∈ code.toList, Text.isWord c = true
  message : '\n' ∉ d.message.toList
  rest : d.packageId = none ∧ d.location = none ∧ d.rendered = none

def SaysSummary (body : List Char) : Prop :=
  "aborting due to".toList <+: body ∨ "could not compile".toList <+: body ∨ "build failed".toList <+: body ∨
  (∃ number, IsNumber number ∧
    (number ++ " warning emitted".toList <+: body ∨ number ++ " warnings emitted".toList <+: body)) ∨
  ∃ number, IsNumber number ∧ "generated ".toList ++ number ++ " warning".toList <:+: firstLine body

/-- A level and what a summary says. -/
def IsSummary (text : List Char) : Prop :=
  ∃ (level : Level) (body : List Char), text = level.word ++ ": ".toList ++ body ∧ SaysSummary body

theorem level?_eq_some_iff {level : Level} : level? text = some (level, rest) ↔ text = level.word ++ rest := by
  unfold level?
  cases level with
  | error =>
    have hword : dropPrefix? "error".toList text = some rest ↔ text = Level.error.word ++ rest := dropPrefix?_eq_some_iff
    rw [← hword]
    cases dropPrefix? "error".toList text <;> simp
  | warning =>
    constructor
    · intro h
      split at h
      · cases h
      · obtain ⟨rest', hrest, he⟩ := Option.map_eq_some_iff.1 h
        cases he
        exact dropPrefix?_eq_some_iff.1 hrest
    · rintro rfl
      have herror : dropPrefix? "error".toList (Level.warning.word ++ rest) = none := rfl
      have hwarning : dropPrefix? "warning".toList (Level.warning.word ++ rest) = some rest :=
        dropPrefix?_eq_some_iff.2 rfl
      split
      · next rest' hrest => cases herror.symm.trans hrest
      · exact Option.map_eq_some_iff.2 ⟨rest, hwarning, rfl⟩

theorem exists_number_of_dropDecimals? (h : dropDecimals? text = some rest) :
    ∃ number, IsNumber number ∧ text = number ++ rest := by
  unfold dropDecimals? at h
  cases text with
  | nil => cases h
  | cons c more =>
    obtain ⟨hc, hrest⟩ := Option.ite_none_right_eq_some.1 h
    refine ⟨c :: more.takeWhile Text.isDecimal, ⟨List.cons_ne_nil _ _, fun d hd => ?_⟩, ?_⟩
    · rcases List.mem_cons.1 hd with rfl | hd
      · exact hc
      · exact List.mem_takeWhile_imp hd
    · rw [← Option.some_inj.1 hrest, List.cons_append, List.takeWhile_append_dropWhile]

theorem dropDecimals?_append {number : List Char} (h : IsNumber number) (rest : List Char) :
    dropDecimals? (number ++ ' ' :: rest) = some (' ' :: rest) := by
  obtain ⟨hne, hall⟩ := h
  cases number with
  | nil => exact absurd rfl hne
  | cons c more =>
    have hblank : Text.isDecimal ' ' = false := by decide
    have hmore : ∀ d ∈ more, Text.isDecimal d = true := fun d hd => hall d (List.mem_cons_of_mem c hd)
    rw [List.cons_append, dropDecimals?, if_pos (hall c List.mem_cons_self),
      (takeWhile_and_dropWhile hmore hblank rest).2]

theorem dropDecimals?_bind_eq_some_iff :
    (dropDecimals? text).bind (dropPrefix? " warning".toList) = some rest ↔
      ∃ number, IsNumber number ∧ text = number ++ " warning".toList ++ rest := by
  constructor
  · intro h
    obtain ⟨tail, htail, hword⟩ := Option.bind_eq_some_iff.1 h
    obtain ⟨number, hnumber, rfl⟩ := exists_number_of_dropDecimals? htail
    refine ⟨number, hnumber, ?_⟩
    rw [dropPrefix?_eq_some_iff.1 hword, List.append_assoc]
  · rintro ⟨number, hnumber, rfl⟩
    have hdigits : dropDecimals? (number ++ " warning".toList ++ rest) = some (" warning".toList ++ rest) := by
      rw [List.append_assoc]
      exact dropDecimals?_append hnumber ("warning".toList ++ rest)
    rw [hdigits, Option.bind_some, dropPrefix?_eq_some_iff]

theorem exists_rest_iff {one many : List Char} :
    (∃ rest, (dropDecimals? body).bind (dropPrefix? " warning".toList) = some rest ∧ (one <+: rest ∨ many <+: rest)) ↔
      ∃ number, IsNumber number ∧
        (number ++ (" warning".toList ++ one) <+: body ∨ number ++ (" warning".toList ++ many) <+: body) := by
  constructor
  · rintro ⟨rest, hrest, hword⟩
    obtain ⟨number, hnumber, rfl⟩ := dropDecimals?_bind_eq_some_iff.1 hrest
    refine ⟨number, hnumber, ?_⟩
    simpa only [← List.append_assoc, List.prefix_append_right_inj] using hword
  · rintro ⟨number, hnumber, ⟨more, rfl⟩ | ⟨more, rfl⟩⟩
    · exact ⟨_, dropDecimals?_bind_eq_some_iff.2 ⟨number, hnumber, by simp only [List.append_assoc]⟩,
        .inl (List.prefix_append _ more)⟩
    · exact ⟨_, dropDecimals?_bind_eq_some_iff.2 ⟨number, hnumber, by simp only [List.append_assoc]⟩,
        .inr (List.prefix_append _ more)⟩

theorem saysEmitted_iff :
    saysEmitted body = true ↔ ∃ number, IsNumber number ∧
      (number ++ " warning emitted".toList <+: body ∨ number ++ " warnings emitted".toList <+: body) := by
  have hspells : saysEmitted body = true ↔ ∃ rest, (dropDecimals? body).bind (dropPrefix? " warning".toList) = some rest ∧
      (" emitted".toList <+: rest ∨ "s emitted".toList <+: rest) := by
    unfold saysEmitted
    cases (dropDecimals? body).bind (dropPrefix? " warning".toList) <;> simp [isSome_dropPrefix?_iff]
  exact hspells.trans exists_rest_iff

theorem saysGenerated_iff :
    saysGenerated body = true ↔ ∃ number, IsNumber number ∧
      "generated ".toList ++ number ++ " warning".toList <+: body := by
  have hspells : saysGenerated body = ((dropPrefix? "generated ".toList body).bind fun tail =>
      (dropDecimals? tail).bind (dropPrefix? " warning".toList)).isSome := by
    rw [saysGenerated, ← Option.bind_assoc]
    cases (dropPrefix? "generated ".toList body).bind dropDecimals? <;> rfl
  rw [hspells, Option.isSome_iff_exists]
  constructor
  · rintro ⟨rest, hrest⟩
    obtain ⟨tail, htail, hrest⟩ := Option.bind_eq_some_iff.1 hrest
    obtain ⟨number, hnumber, rfl⟩ := dropDecimals?_bind_eq_some_iff.1 hrest
    refine ⟨number, hnumber, rest, ?_⟩
    rw [dropPrefix?_eq_some_iff.1 htail]
    simp only [List.append_assoc]
  · rintro ⟨number, hnumber, rest, rfl⟩
    refine ⟨rest, Option.bind_eq_some_iff.2 ⟨_, dropPrefix?_eq_some_iff.2 ?_,
      dropDecimals?_bind_eq_some_iff.2 ⟨number, hnumber, rfl⟩⟩⟩
    simp only [List.append_assoc]

theorem prefix_firstLine_iff {line : List Char} (h : '\n' ∉ line) : line <+: firstLine text ↔ line <+: text := by
  constructor
  · intro hline
    exact hline.trans (List.takeWhile_prefix _)
  · rintro ⟨rest, rfl⟩
    rw [firstLine, List.takeWhile_append_of_pos]
    · exact List.prefix_append _ _
    · intro c hc
      simpa using ne_of_mem_of_not_mem hc h

theorem feed_notMem_generated {number : List Char} (h : IsNumber number) :
    '\n' ∉ "generated ".toList ++ number ++ " warning".toList := by
  intro hmem
  have hfeed : Text.isDecimal '\n' = false := by decide
  have hwords : '\n' ∉ "generated ".toList ∧ '\n' ∉ " warning".toList := by decide
  simp only [List.mem_append] at hmem
  rcases hmem with (hmem | hmem) | hmem
  · exact hwords.1 hmem
  · rw [h.2 _ hmem] at hfeed
    cases hfeed
  · exact hwords.2 hmem

/-- What is looked for stands on one line, so to look for it up to the end of the line is enough. -/
theorem mentionsGenerated_iff :
    mentionsGenerated body = true ↔ ∃ number, IsNumber number ∧
      "generated ".toList ++ number ++ " warning".toList <:+: firstLine body := by
  induction body with
  | nil => simp [mentionsGenerated, firstLine]
  | cons c rest ih =>
    have hfirst : saysGenerated (c :: rest) = true ↔ ∃ number, IsNumber number ∧
        "generated ".toList ++ number ++ " warning".toList <+: firstLine (c :: rest) := by
      rw [saysGenerated_iff]
      refine exists_congr fun number => and_congr_right fun hnumber => ?_
      exact (prefix_firstLine_iff (feed_notMem_generated hnumber)).symm
    rw [mentionsGenerated, Bool.or_eq_true, hfirst, Bool.and_eq_true, ih]
    constructor
    · rintro (⟨number, hnumber, hhere⟩ | ⟨hc, number, hnumber, hlater⟩)
      · exact ⟨number, hnumber, hhere.isInfix⟩
      · have hcons : firstLine (c :: rest) = c :: firstLine rest := List.takeWhile_cons_of_pos hc
        rw [hcons]
        exact ⟨number, hnumber, List.infix_cons hlater⟩
    · rintro ⟨number, hnumber, hline⟩
      by_cases hc : c = '\n'
      · have hempty : firstLine (c :: rest) = [] := List.takeWhile_cons_of_neg (by simp [hc])
        rw [hempty] at hline ⊢
        exact .inl ⟨number, hnumber, List.infix_nil.1 hline ▸ List.nil_prefix⟩
      · have hcons : firstLine (c :: rest) = c :: firstLine rest := List.takeWhile_cons_of_pos (by simp [hc])
        rw [hcons] at hline ⊢
        rcases List.infix_cons_iff.1 hline with hhere | hlater
        · exact .inl ⟨number, hnumber, hhere⟩
        · exact .inr ⟨by simp [hc], number, hnumber, hlater⟩

theorem isSummary_iff : isSummary text = true ↔ IsSummary text := by
  have hbody : ∀ body, isSummaryBody body = true ↔ SaysSummary body := by
    intro body
    simp only [isSummaryBody, SaysSummary, Bool.or_eq_true, mentionsGenerated_iff, saysEmitted_iff,
      isSome_dropPrefix?_iff]
    grind
  unfold isSummary
  constructor
  · intro h
    split at h
    · next body hsome =>
      obtain ⟨⟨level, rest⟩, hlevel, hcolon⟩ := Option.bind_eq_some_iff.1 hsome
      refine ⟨level, body, ?_, (hbody body).1 h⟩
      have hrest : rest = ": ".toList ++ body := dropPrefix?_eq_some_iff.1 hcolon
      rw [level?_eq_some_iff.1 hlevel, hrest, List.append_assoc]
    · cases h
  · rintro ⟨level, body, rfl, h⟩
    have hlevel : level? (level.word ++ ": ".toList ++ body) = some (level, ": ".toList ++ body) :=
      level?_eq_some_iff.2 (List.append_assoc ..)
    have hcolon : dropPrefix? ": ".toList (": ".toList ++ body) = some body := dropPrefix?_eq_some_iff.2 rfl
    simp only [hlevel, Option.bind_some, hcolon]
    exact (hbody body).2 h

theorem eq_of_bracketed {code : Option (List Char)} (h : bracketed text = (code, rest)) :
    text = codeText (code.map String.ofList) ++ rest ∧
      ∀ word, code = some word → word ≠ [] ∧ ∀ c ∈ word, Text.isWord c = true := by
  have hnone : (none, text) = (code, rest) → text = codeText (code.map String.ofList) ++ rest ∧
      ∀ word, code = some word → word ≠ [] ∧ ∀ c ∈ word, Text.isWord c = true := by
    intro he
    cases he
    exact ⟨rfl, fun word hword => nomatch hword⟩
  unfold bracketed at h
  split at h
  · next more =>
    simp only at h
    split at h
    · next after hafter =>
      split at h
      · exact hnone h
      · next hne =>
        cases h
        constructor
        · rw [Option.map_some, codeText, String.toList_ofList]
          have hsplit := List.takeWhile_append_dropWhile (p := Text.isWord) (l := more)
          rw [hafter] at hsplit
          simp [hsplit]
        · intro word hword
          cases hword
          exact ⟨by simpa using hne, fun c hc => List.mem_takeWhile_imp hc⟩
    · exact hnone h
  · exact hnone h

theorem bracketed_codeText {code : Option String}
    (h : ∀ word, code = some word → word.toList ≠ [] ∧ ∀ c ∈ word.toList, Text.isWord c = true) (rest : List Char) :
    bracketed (codeText code ++ ':' :: rest) = (code.map String.toList, ':' :: rest) := by
  cases code with
  | none => rfl
  | some word =>
    obtain ⟨hne, hword⟩ := h word rfl
    have hclose : Text.isWord ']' = false := by decide
    have htext : codeText (some word) ++ ':' :: rest = '[' :: (word.toList ++ ']' :: ':' :: rest) := by
      simp [codeText]
    obtain ⟨htake, hdrop⟩ := takeWhile_and_dropWhile hword hclose (':' :: rest)
    rw [htext, bracketed]
    simp only [htake, hdrop]
    rw [if_neg (by simpa using hne)]
    rfl

/-- A text is a diagnostic exactly if it is the text of one and no summary. -/
theorem plainDiagnostic_grammar (text : List Char) :
    (isSummary text = true ↔ IsSummary text) ∧
    ∀ d, plainDiagnostic? text = some d ↔ ¬ IsSummary text ∧ d.IsPlain ∧ text = d.plainText := by
  refine ⟨isSummary_iff, fun d => ?_⟩
  unfold plainDiagnostic?
  rw [← isSummary_iff]
  constructor
  · intro h
    obtain ⟨hsummary, h⟩ := Option.ite_none_left_eq_some.1 h
    obtain ⟨⟨level, rest⟩, hlevel, h⟩ := Option.bind_eq_some_iff.1 h
    rcases hbracketed : bracketed rest with ⟨code, tail⟩
    simp only [hbracketed] at h
    obtain ⟨message, hcolon, h⟩ := Option.bind_eq_some_iff.1 h
    obtain ⟨hfeed, he⟩ := Option.ite_none_left_eq_some.1 h
    obtain ⟨hcode, hword⟩ := eq_of_bracketed hbracketed
    cases he
    refine ⟨hsummary, ⟨?_, ?_, rfl, rfl, rfl⟩, ?_⟩
    · intro code he
      obtain ⟨word, hsome, rfl⟩ := Option.map_eq_some_iff.1 he
      rw [String.toList_ofList]
      exact hword word hsome
    · simpa using hfeed
    · rw [Diagnostic.plainText, level?_eq_some_iff.1 hlevel, hcode, dropPrefix?_eq_some_iff.1 hcolon]
      simp only [String.toList_ofList, List.append_assoc]
  · rintro ⟨hsummary, ⟨hcode, hfeed, hpackage, hlocation, hrendered⟩, rfl⟩
    have hlevel : level? d.plainText = some (d.level, codeText d.code ++ (": ".toList ++ d.message.toList)) :=
      level?_eq_some_iff.2 (by simp only [Diagnostic.plainText, List.append_assoc])
    have hbracketed := bracketed_codeText hcode (' ' :: d.message.toList)
    have hcolon : dropPrefix? ": ".toList (':' :: ' ' :: d.message.toList) = some d.message.toList :=
      dropPrefix?_eq_some_iff.2 rfl
    have hcontains : d.message.toList.contains '\n' = false := by simpa using hfeed
    have hchars : ": ".toList ++ d.message.toList = ':' :: ' ' :: d.message.toList := rfl
    rw [if_neg hsummary, hlevel, hchars, Option.bind_some]
    simp only [hbracketed, hcolon, Option.bind_some, hcontains]
    cases d
    simp_all [Function.comp_def]

end Output

end CrateYard
