import CrateYard.Proofs.Json.Grammar
import CrateYard.Proofs.Json.RoundTrip
import Mathlib.Data.Fintype.Basic
import Mathlib.Tactic.FinCases

/-! Every text that spells a value is read as that value. A lexeme may be over only when the character behind it is
seen, so what is said of the lexer is that it has read some tokens as soon as a delimiter or the end follows. -/

namespace CrateYard.Json

namespace Lexer

def IsDelimiter (c : Char) : Prop :=
  c ∈ [' ', '\n', '\t', '\r', ',', ':', ']', '\x7d']

/-- These tokens have been read, if a delimiter or the end follows. -/
structure Settled (s : State) (tokens : List Token) : Prop where
  step : ∀ c, IsDelimiter c → Lexer.step s c = begin? tokens c
  finish : s.finish? = some tokens.reverse

/-- Between lexemes the text is read as these tokens, if a delimiter or the end follows it. -/
def Reads (text : List Char) (tokens : List Token) : Prop :=
  ∀ done, ∃ s, text.foldlM step ⟨.between, done⟩ = some s ∧ Settled s (tokens.reverse ++ done)

variable {text more : List Char} {tokens others done : List Token}

theorem settled_between (tokens : List Token) : Settled ⟨.between, tokens⟩ tokens :=
  ⟨fun _ _ => rfl, rfl⟩

theorem Spells.reads (h : Spells text tokens) : Reads text tokens :=
  fun done => ⟨_, h done, settled_between _⟩

theorem Spells.append_reads (h : Spells text tokens) (h' : Reads more others) :
    Reads (text ++ more) (tokens ++ others) := by
  intro done
  obtain ⟨s, hs, hsettled⟩ := h' (tokens.reverse ++ done)
  refine ⟨s, by rw [List.foldlM_append, h done]; exact hs, ?_⟩
  rwa [List.reverse_append, List.append_assoc]

/-- Behind a text that a delimiter ends, the next one is read as if it stood alone. -/
theorem Reads.append (h : Reads text tokens) {c : Char} (hc : IsDelimiter c) (h' : Reads (c :: more) others) :
    Reads (text ++ c :: more) (tokens ++ others) := by
  intro done
  obtain ⟨s, hs, hsettled⟩ := h done
  obtain ⟨s', hs', hsettled'⟩ := h' (tokens.reverse ++ done)
  refine ⟨s', ?_, ?_⟩
  · rw [List.foldlM_append, hs, Option.bind_eq_bind, Option.bind_some, ← hs', List.foldlM_cons, List.foldlM_cons,
      hsettled.step c hc]
    rfl
  · rwa [List.reverse_append, List.append_assoc]

theorem Reads.append_comma (h : Reads text tokens) (h' : Reads more others) :
    Reads (text ++ ',' :: more) (tokens ++ .comma :: others) :=
  h.append (by simp [IsDelimiter]) (spells_comma.append_reads h')

theorem Reads.ofText?_eq (h : Reads text tokens) : Token.ofText? text = some tokens := by
  obtain ⟨s, hs, hsettled⟩ := h []
  rw [Token.ofText?, hs, Option.bind_some, hsettled.finish, List.append_nil, List.reverse_reverse]

/-! White space. -/

theorem isDelimiter_blank (b : Blank) : IsDelimiter b.char := by
  cases b <;> simp [Blank.char, IsDelimiter]

theorem spells_gap (blanks : List Blank) : Spells (gap blanks) [] := by
  intro done
  induction blanks with
  | nil => rfl
  | cons b rest ih =>
    have hb : step ⟨.between, done⟩ b.char = some ⟨.between, done⟩ := by cases b <;> rfl
    rw [gap, List.map_cons, List.foldlM_cons, hb]
    exact ih

theorem Reads.append_gap (h : Reads text tokens) (blanks : List Blank) : Reads (text ++ gap blanks) tokens := by
  cases blanks with
  | nil => simpa [gap] using h
  | cons b rest => simpa [gap] using h.append (isDelimiter_blank b) (spells_gap (b :: rest)).reads

theorem Reads.chars {i : Item} (h : Reads i.text tokens) : Reads i.chars tokens :=
  (spells_gap i.before).append_reads (h.append_gap i.after)

/-! Strings. -/

namespace Partial

/-- A piece follows what has been read. -/
def put (p : Partial) : Piece → Partial
  | .plain c _ => p.push c
  | .escape e => p.push e.char
  | .unit first second third fourth =>
    p.pushUnit (16 * (16 * (16 * first.value + second.value) + third.value) + fourth.value)

/-- The high surrogate that waits for its low one, if there is one. -/
def waiting (p : Partial) : List Part :=
  (p.high.map fun unit => .high (unit - 0xD800)).toList

/-- The literal that a string becomes if these parts follow and then its end. -/
def literalWith (p : Partial) (parts : List Part) : Literal :=
  if p.paired then (Part.text? (p.waiting ++ parts)).map fun text => String.ofList (p.reversed.reverse ++ text)
  else none

theorem literalWith_nil (p : Partial) : p.literalWith [] = p.literal := by
  obtain ⟨reversed, high, paired⟩ := p
  cases high <;> cases paired <;> simp [literalWith, literal, waiting, Part.text?]

theorem literalWith_push (p : Partial) (c : Char) (parts : List Part) :
    (p.push c).literalWith parts = p.literalWith (.char c :: parts) := by
  obtain ⟨reversed, high, paired⟩ := p
  cases high <;> cases paired <;> simp [literalWith, push, waiting, Part.text?, Function.comp_def]

theorem literalWith_pushUnit (p : Partial) (unit : Nat) (parts : List Part) :
    (p.pushUnit unit).literalWith parts = p.literalWith (.ofUnit unit :: parts) := by
  obtain ⟨reversed, high, paired⟩ := p
  -- where a surrogate stays alone, the characters of the two sides differ and neither has a text
  by_cases hhigh : 0xD800 ≤ unit ∧ unit < 0xDC00
  · have hof : Part.ofUnit unit = .high (unit - 0xD800) := if_pos hhigh
    have hlow : ¬ 0xDC00 ≤ unit := by omega
    have hpush : 0xD800 ≤ unit ∧ unit ≤ 0xDBFF := by omega
    cases high <;> simp [literalWith, pushUnit, waiting, Part.text?, hof, hlow, hpush]
  · by_cases hlow : 0xDC00 ≤ unit ∧ unit < 0xE000
    · have hof : Part.ofUnit unit = .low (unit - 0xDC00) := (if_neg hhigh).trans (if_pos hlow)
      have hpush : 0xDC00 ≤ unit ∧ unit ≤ 0xDFFF := by omega
      cases high <;> simp [literalWith, pushUnit, waiting, Part.text?, hof, hpush, Function.comp_def]
    · have hof : Part.ofUnit unit = .char (Char.ofNat unit) := (if_neg hhigh).trans (if_neg hlow)
      have hpush : ¬ (0xDC00 ≤ unit ∧ unit ≤ 0xDFFF) ∧ ¬ (0xD800 ≤ unit ∧ unit ≤ 0xDBFF) := by omega
      cases high <;> simp [literalWith, pushUnit, waiting, Part.text?, hof, hpush, Function.comp_def]

theorem literal_foldl_put (p : Partial) (pieces : List Piece) :
    (pieces.foldl put p).literal = p.literalWith (pieces.map Piece.part) := by
  induction pieces generalizing p with
  | nil => exact (literalWith_nil p).symm
  | cons piece rest ih =>
    rw [List.foldl_cons, ih, List.map_cons]
    cases piece with
    | plain c h => exact literalWith_push p c _
    | escape e => exact literalWith_push p e.char _
    | unit first second third fourth => exact literalWith_pushUnit p _ _

end Partial

theorem hexDigit?_char (d : HexDigit) : hexDigit? d.char = some d.value := by
  obtain ⟨value, isCapital⟩ := d
  revert value isCapital
  decide

theorem escaped?_letter (e : Escape) : escaped? e.letter = some e.char ∧ e.letter ≠ 'u' := by
  cases e <;> exact ⟨rfl, by decide⟩

theorem foldlM_piece (p : Partial) (piece : Piece) :
    piece.chars.foldlM step ⟨.string p, done⟩ = some ⟨.string (p.put piece), done⟩ := by
  cases piece with
  | plain c h =>
    obtain ⟨hc, hquote, hslash⟩ := h
    simp [Piece.chars, step, hquote, hslash, Nat.not_lt.2 hc, Partial.put]
  | escape e => simp [Piece.chars, step, escaped?_letter, Partial.put]
  | unit first second third fourth => simp [Piece.chars, step, hexDigit?_char, Partial.put]

theorem foldlM_pieces (p : Partial) (pieces : List Piece) :
    (pieces.flatMap Piece.chars).foldlM step ⟨.string p, done⟩ = some ⟨.string (pieces.foldl Partial.put p), done⟩ := by
  induction pieces generalizing p with
  | nil => rfl
  | cons piece rest ih =>
    rw [List.flatMap_cons, List.foldlM_append, foldlM_piece, Option.bind_eq_bind, Option.bind_some, ih, List.foldl_cons]

theorem spells_quoted (pieces : List Piece) :
    Spells (Piece.quoted pieces) [.scalar (.string (Piece.literal pieces))] := by
  intro done
  have hliteral : (pieces.foldl Partial.put .start).literal = Piece.literal pieces := by
    rw [Partial.literal_foldl_put]
    rfl
  have hopen : step ⟨.between, done⟩ '"' = some ⟨.string .start, done⟩ := rfl
  rw [Piece.quoted, List.cons_append, List.foldlM_cons, hopen, Option.bind_eq_bind, Option.bind_some,
    List.foldlM_append, foldlM_pieces]
  simp [step, hliteral]

/-! Numbers. -/

theorem digit?_digitChar (n : Fin 10) : Digits.digit? (digitChar n) = some n := by
  revert n
  decide

namespace Digits

variable {d : Digits}

/-- A number that digits follow, at a place where they may. -/
def addRow (d : Digits) (digits : List (Fin 10)) : Digits :=
  match d.place with
  | .whole => { d with whole := decimal digits d.whole }
  | .fraction => { d with fraction := digits.reverse ++ d.fraction }
  | .exponentDigits => { d with power := decimal digits d.power }
  | _ => d

theorem foldlM_row (hd : d.place = .whole ∨ d.place = .fraction ∨ d.place = .exponentDigits)
    (digits : List (Fin 10)) : (row digits).foldlM extend? d = some (d.addRow digits) := by
  induction digits generalizing d with
  | nil =>
    have hnil : d.addRow [] = d := by rcases hd with h | h | h <;> cases d <;> cases h <;> rfl
    rw [hnil]
    rfl
  | cons n rest ih =>
    have hn : d.extend? (digitChar n) = some (d.addRow [n]) ∧ (d.addRow [n]).place = d.place ∧
        (d.addRow [n]).addRow rest = d.addRow (n :: rest) := by
      rcases hd with h | h | h <;> cases d <;> cases h <;> simp [extend?, digit?_digitChar, addRow, decimal]
    obtain ⟨hextend, hplace, hrest⟩ := hn
    rw [row, List.map_cons, List.foldlM_cons, hextend, ← hrest]
    exact ih (hplace.symm ▸ hd)

theorem exists_whole (n : Numeral) : ∃ place, (place = .zero ∨ place = .whole) ∧
    (row (n.first :: n.rest)).foldlM extend? ⟨.sign, n.isNegative, 0, [], false, 0⟩ =
      some ⟨place, n.isNegative, decimal (n.first :: n.rest) 0, [], false, 0⟩ := by
  rw [row, List.map_cons, List.foldlM_cons]
  by_cases hzero : n.first = 0
  · refine ⟨.zero, .inl rfl, ?_⟩
    rw [n.rest_of_zero (congrArg Fin.val hzero), hzero]
    rfl
  · refine ⟨.whole, .inr rfl, ?_⟩
    have hfirst : (⟨.sign, n.isNegative, 0, [], false, 0⟩ : Digits).extend? (digitChar n.first) =
        some ⟨.whole, n.isNegative, n.first, [], false, 0⟩ := by
      simp [extend?, digit?_digitChar, hzero]
    rw [hfirst]
    refine (foldlM_row (.inl rfl) n.rest).trans ?_
    simp [addRow, decimal]

theorem exists_fraction (n : Numeral) {place : Place} (hplace : place = .zero ∨ place = .whole) (whole : Nat) :
    ∃ place', (place' = .zero ∨ place' = .whole ∨ place' = .fraction) ∧
      (place' ≠ .fraction → n.fraction = []) ∧
      n.fractionChars.foldlM extend? ⟨place, n.isNegative, whole, [], false, 0⟩ =
        some ⟨place', n.isNegative, whole, n.fraction.reverse, false, 0⟩ := by
  rw [Numeral.fractionChars]
  cases n.fraction with
  | nil => exact ⟨place, hplace.imp_right .inl, fun _ => rfl, rfl⟩
  | cons digit rest =>
    refine ⟨.fraction, .inr (.inr rfl), fun h => absurd rfl h, ?_⟩
    have hpoint : (⟨place, n.isNegative, whole, [], false, 0⟩ : Digits).extend? '.' =
        some ⟨.point, n.isNegative, whole, [], false, 0⟩ := by
      rcases hplace with rfl | rfl <;> rfl
    have hfirst : (⟨.point, n.isNegative, whole, [], false, 0⟩ : Digits).extend? (digitChar digit) =
        some ⟨.fraction, n.isNegative, whole, [digit], false, 0⟩ := by
      simp [extend?, digit?_digitChar]
    rw [List.foldlM_cons, hpoint, Option.bind_eq_bind, Option.bind_some, row, List.map_cons, List.foldlM_cons, hfirst]
    refine (foldlM_row (.inr (.inl rfl)) rest).trans ?_
    simp [addRow]

theorem foldlM_exponent (e : Exponent) {place : Place} (hplace : place = .zero ∨ place = .whole ∨ place = .fraction)
    (negative : Bool) (whole : Nat) (fraction : List (Fin 10)) :
    e.chars.foldlM extend? ⟨place, negative, whole, fraction, false, 0⟩ =
      some ⟨.exponentDigits, negative, whole, fraction, e.sign = .minus, decimal (e.first :: e.rest) 0⟩ := by
  obtain ⟨isCapital, sign, first, rest⟩ := e
  have hletter : (⟨place, negative, whole, fraction, false, 0⟩ : Digits).extend? (if isCapital then 'E' else 'e') =
      some ⟨.exponent, negative, whole, fraction, false, 0⟩ := by
    rcases hplace with rfl | rfl | rfl <;> cases isCapital <;> rfl
  have hfirst : (sign.chars ++ digitChar first :: row rest).foldlM extend?
      ⟨.exponent, negative, whole, fraction, false, 0⟩ =
        (row rest).foldlM extend? ⟨.exponentDigits, negative, whole, fraction, sign = .minus, first⟩ := by
    have hplus : (⟨.exponent, negative, whole, fraction, false, 0⟩ : Digits).extend? '+' =
        some ⟨.exponentSign, negative, whole, fraction, false, 0⟩ := rfl
    have hminus : (⟨.exponent, negative, whole, fraction, false, 0⟩ : Digits).extend? '-' =
        some ⟨.exponentSign, negative, whole, fraction, true, 0⟩ := rfl
    cases sign with
    | none => simp [Sign.chars, extend?, digit?_digitChar]
    | plus =>
      rw [Sign.chars, List.singleton_append, List.foldlM_cons, hplus]
      simp [extend?, digit?_digitChar]
    | minus =>
      rw [Sign.chars, List.singleton_append, List.foldlM_cons, hminus]
      simp [extend?, digit?_digitChar]
  rw [Exponent.chars, List.foldlM_cons, hletter, Option.bind_eq_bind, Option.bind_some, row, List.map_cons]
  refine hfirst.trans ((foldlM_row (.inr (.inr rfl)) rest).trans ?_)
  simp [addRow, decimal]

theorem exists_exponent (n : Numeral) {place : Place} (hplace : place = .zero ∨ place = .whole ∨ place = .fraction)
    (hnone : place ≠ .fraction → n.fraction = []) (whole : Nat) :
    ∃ d : Digits, n.exponentChars.foldlM extend? ⟨place, n.isNegative, whole, n.fraction.reverse, false, 0⟩ = some d ∧
      d.number? = some ⟨n.isNegative, whole, n.fraction, n.exponent.map Exponent.value⟩ := by
  rw [Numeral.exponentChars]
  cases n.exponent with
  | none =>
    refine ⟨_, rfl, ?_⟩
    rcases hplace with rfl | rfl | rfl
    · rw [hnone nofun]
      rfl
    · rw [hnone nofun]
      rfl
    · simp [number?]
  | some e =>
    refine ⟨_, foldlM_exponent e hplace n.isNegative whole n.fraction.reverse, ?_⟩
    simp [number?, Exponent.value]

theorem exists_unsigned (n : Numeral) : ∃ d : Digits,
    n.unsigned.foldlM extend? ⟨.sign, n.isNegative, 0, [], false, 0⟩ = some d ∧ d.number? = some n.number := by
  obtain ⟨place, hplace, hwhole⟩ := exists_whole n
  obtain ⟨place', hplace', hnone, hfraction⟩ := exists_fraction n hplace (decimal (n.first :: n.rest) 0)
  obtain ⟨d, hexponent, hnumber⟩ := exists_exponent n hplace' hnone (decimal (n.first :: n.rest) 0)
  refine ⟨d, ?_, hnumber⟩
  rw [Numeral.unsigned, List.foldlM_append, hwhole, Option.bind_eq_bind, Option.bind_some, List.foldlM_append,
    hfraction]
  exact hexponent

theorem foldlM_step {text : List Char} {d' : Digits} (h : text.foldlM extend? d = some d') (done : List Token) :
    text.foldlM step ⟨.number d, done⟩ = some ⟨.number d', done⟩ := by
  induction text generalizing d with
  | nil =>
    cases h
    rfl
  | cons c rest ih =>
    rw [List.foldlM_cons] at h
    obtain ⟨next, hnext, hrest⟩ := Option.bind_eq_some_iff.1 h
    have hstep : step ⟨.number d, done⟩ c = some ⟨.number next, done⟩ := by simp [step, hnext]
    rw [List.foldlM_cons, hstep]
    exact ih hrest

end Digits

theorem begin?_digitChar (n : Fin 10) (tokens : List Token) : begin? tokens (digitChar n) =
    ((⟨.sign, false, 0, [], false, 0⟩ : Digits).extend? (digitChar n)).map fun d => ⟨.number d, tokens⟩ := by
  fin_cases n <;> rfl

theorem exists_numeral (n : Numeral) (done : List Token) : ∃ d : Digits,
    n.chars.foldlM step ⟨.between, done⟩ = some ⟨.number d, done⟩ ∧ d.number? = some n.number := by
  obtain ⟨d, hd, hnumber⟩ := Digits.exists_unsigned n
  refine ⟨d, ?_, hnumber⟩
  rw [Numeral.chars]
  cases hsign : n.isNegative with
  | true =>
    rw [hsign] at hd
    rw [if_pos rfl, List.foldlM_cons]
    exact Digits.foldlM_step hd done
  | false =>
    rw [hsign] at hd
    rw [if_neg Bool.false_ne_true]
    rw [Numeral.unsigned, row, List.map_cons, List.cons_append, List.foldlM_cons] at hd ⊢
    obtain ⟨next, hnext, hrest⟩ := Option.bind_eq_some_iff.1 hd
    have hbegin : step ⟨.between, done⟩ (digitChar n.first) = some ⟨.number next, done⟩ := by
      change begin? done (digitChar n.first) = _
      rw [begin?_digitChar, hnext]
      rfl
    rw [hbegin]
    exact Digits.foldlM_step hrest done

theorem extend?_delimiter {c : Char} (hc : IsDelimiter c) (d : Digits) : d.extend? c = none := by
  obtain ⟨place, negative, whole, fraction, down, power⟩ := d
  simp only [IsDelimiter, List.mem_cons, List.not_mem_nil, or_false] at hc
  rcases hc with rfl | rfl | rfl | rfl | rfl | rfl | rfl | rfl <;> cases place <;> rfl

theorem reads_numeral (n : Numeral) : Reads n.chars [.scalar (.number n.number)] := by
  intro done
  obtain ⟨d, hd, hnumber⟩ := exists_numeral n done
  refine ⟨_, hd, fun c hc => ?_, ?_⟩
  · simp [step, extend?_delimiter hc, hnumber]
  · simp [State.finish?, hnumber]

end Lexer

open Lexer

/-! Containers. -/

theorem reads_items {items : List Item} (hne : items ≠ []) (h : ∀ i ∈ items, Reads i.text i.value.tokens) :
    Reads (commas (items.map Item.chars)) (Value.itemTokens (items.map Item.value)) := by
  induction items with
  | nil => exact absurd rfl hne
  | cons i rest ih =>
    have hi : Reads i.chars i.value.tokens := (h i List.mem_cons_self).chars
    cases rest with
    | nil => simpa [commas, Value.itemTokens] using hi
    | cons j rest =>
      have hrest := ih (List.cons_ne_nil j rest) fun k hk => h k (List.mem_cons_of_mem i hk)
      have hcomma := hi.append_comma hrest
      simpa [commas, Value.itemTokens, List.intercalate] using hcomma

theorem Lexer.Reads.member {m : Member} (h : Reads m.item.text m.item.value.tokens) :
    Reads m.chars (.scalar (.string (Piece.literal m.name)) :: .colon :: m.item.value.tokens) := by
  have hname := (spells_gap m.before).append ((spells_quoted m.name).append ((spells_gap m.after).append spells_colon))
  simpa [Member.chars] using hname.append_reads h.chars

theorem reads_members {members : List Member} (hne : members ≠ [])
    (h : ∀ m ∈ members, Reads m.item.text m.item.value.tokens) :
    Reads (commas (members.map Member.chars)) (Value.memberTokens (members.map Member.entry)) := by
  induction members with
  | nil => exact absurd rfl hne
  | cons m rest ih =>
    have hm := (h m List.mem_cons_self).member
    cases rest with
    | nil => simpa [commas, Value.memberTokens, Member.entry] using hm
    | cons n rest =>
      have hrest := ih (List.cons_ne_nil n rest) fun k hk => h k (List.mem_cons_of_mem m hk)
      have hcomma := hm.append_comma hrest
      simpa [commas, Value.memberTokens, Member.entry, List.intercalate] using hcomma

theorem Spelling.reads {text : List Char} {v : Value} (h : Spelling text v) : Reads text v.tokens := by
  induction h with
  | null => exact Spells.reads fun _ => rfl
  | «true» => exact Spells.reads fun _ => rfl
  | «false» => exact Spells.reads fun _ => rfl
  | number n => exact reads_numeral n
  | string pieces => exact (spells_quoted pieces).reads
  | emptyArray blanks => exact (spells_openArray.append ((spells_gap blanks).append spells_closeArray)).reads
  | array hne h ih =>
    have hclosed := (reads_items hne ih).append (c := ']') (by simp [IsDelimiter]) spells_closeArray.reads
    exact spells_openArray.append_reads hclosed
  | emptyObject blanks => exact (spells_openObject.append ((spells_gap blanks).append spells_closeObject)).reads
  | object hne h ih =>
    have hclosed := (reads_members hne ih).append (c := '\x7d') (by simp [IsDelimiter]) spells_closeObject.reads
    exact spells_openObject.append_reads hclosed

theorem IsDocument.parse?_eq {text : String} {v : Value} (h : IsDocument text v) : Value.parse? text = some v := by
  obtain ⟨i, hspelling, htext, rfl⟩ := h
  rw [Value.parse?, htext, hspelling.reads.chars.ofText?_eq, Option.bind_some, Value.ofTokens?_tokens]

end CrateYard.Json
