import CrateYard.Json.Reader
import CrateYard.Json.Writer
import Mathlib.Data.List.Basic

/-! Texts that were written are read back. A text spells some tokens if the lexer, outside every lexeme, comes to stand
outside again with these tokens; spellings can be put one behind the other. The text of a value spells its tokens, and
from these the reader makes the value. -/

namespace CrateYard.Json

namespace Lexer

/-- Between lexemes the text is read as these tokens. -/
def Spells (text : List Char) (tokens : List Token) : Prop :=
  ∀ done, text.foldlM step ⟨.between, done⟩ = some ⟨.between, tokens.reverse ++ done⟩

variable {text more : List Char} {tokens others done : List Token} {p : Partial}

theorem Spells.nil : Spells [] [] :=
  fun _ => rfl

theorem Spells.append (h : Spells text tokens) (h' : Spells more others) :
    Spells (text ++ more) (tokens ++ others) := by
  intro done
  rw [List.foldlM_append, h done, Option.bind_eq_bind, Option.bind_some, h', List.reverse_append, List.append_assoc]

theorem ofText?_eq_some (h : Spells text tokens) : Token.ofText? text = some tokens := by
  rw [Token.ofText?, h []]
  simp [State.finish?]

/-! Strings. -/

theorem hexDigit?_hexDigit : ∀ n < 16, hexDigit? (Writer.hexDigit n) = some n := by
  decide

theorem pushUnit_toNat {c : Char} (hp : p.high = none) (hc : c.toNat < 0x20) : p.pushUnit c.toNat = p.push c := by
  have hlow : ¬ 0xDC00 ≤ c.toNat := by omega
  have hhigh : ¬ 0xD800 ≤ c.toNat := by omega
  simp [Partial.pushUnit, Partial.push, hp, hlow, hhigh]

theorem foldlM_escape (hp : p.high = none) (c : Char) :
    (Writer.escape c).foldlM step ⟨.string p, done⟩ = some ⟨.string (p.push c), done⟩ := by
  unfold Writer.escape
  split
  case h_8 hquote hslash _ _ _ _ _ =>
    split
    · next hc =>
      have hunit : 16 * (c.toNat / 16) + c.toNat % 16 = c.toNat := Nat.div_add_mod ..
      have hfirst := hexDigit?_hexDigit (c.toNat / 16) (by omega)
      have hsecond := hexDigit?_hexDigit (c.toNat % 16) (by omega)
      have hzero : hexDigit? '0' = some 0 := by decide
      simp [step, hzero, hfirst, hsecond, hunit, pushUnit_toNat hp hc]
    · next hc =>
      rw [List.foldlM_cons, step]
      simp only [if_neg hquote, if_neg hslash, if_neg hc]
      rfl
  all_goals simp [step, escaped?]

theorem foldl_push (hp : p.high = none) (s : List Char) :
    s.foldl Partial.push p = ⟨s.reverse ++ p.reversed, none, p.paired⟩ := by
  induction s generalizing p with
  | nil =>
    cases p
    cases hp
    rfl
  | cons c rest ih =>
    rw [List.foldl_cons, ih rfl]
    simp [Partial.push, hp]

theorem foldlM_flatMap_escape (hp : p.high = none) (s : List Char) :
    (s.flatMap Writer.escape).foldlM step ⟨.string p, done⟩ = some ⟨.string (s.foldl Partial.push p), done⟩ := by
  induction s generalizing p with
  | nil => rfl
  | cons c rest ih =>
    rw [List.flatMap_cons, List.foldlM_append, foldlM_escape hp, Option.bind_eq_bind, Option.bind_some, ih rfl,
      List.foldl_cons]

theorem spells_literal (s : Literal) : Spells (Writer.literal s).toList [.scalar (.string s)] := by
  intro done
  cases s with
  | none => rfl
  | some s =>
    have hopen : step ⟨.between, done⟩ '"' = some ⟨.string .start, done⟩ := rfl
    rw [Writer.literal, String.toList_ofList, List.cons_append, List.foldlM_cons, hopen, Option.bind_eq_bind,
      Option.bind_some, List.foldlM_append, foldlM_flatMap_escape rfl, foldl_push rfl]
    simp [step, Partial.literal, Partial.start]

/-! Punctuation. -/

theorem spells_comma : Spells ",".toList [.comma] := fun _ => rfl

theorem spells_colon : Spells ":".toList [.colon] := fun _ => rfl

theorem spells_openArray : Spells "[".toList [.openArray] := fun _ => rfl

theorem spells_closeArray : Spells "]".toList [.closeArray] := fun _ => rfl

theorem spells_openObject : Spells "\x7b".toList [.openObject] := fun _ => rfl

theorem spells_closeObject : Spells "\x7d".toList [.closeObject] := fun _ => rfl

end Lexer

namespace Value

mutual

def tokens : Value → List Token
  | .array items => .openArray :: (itemTokens items ++ [.closeArray])
  | .object members => .openObject :: (memberTokens members ++ [.closeObject])
  | v => [.scalar v]

def itemTokens : List Value → List Token
  | [] => []
  | [v] => v.tokens
  | v :: rest => v.tokens ++ .comma :: itemTokens rest

def memberTokens : List (Literal × Value) → List Token
  | [] => []
  | [(name, v)] => .scalar (.string name) :: .colon :: v.tokens
  | (name, v) :: rest => .scalar (.string name) :: .colon :: (v.tokens ++ .comma :: memberTokens rest)

end

/-- The value holds no number, wherever it may be. -/
inductive IsPlain : Value → Prop where
  | null : IsPlain .null
  | bool (b : Bool) : IsPlain (.bool b)
  | string (s : Literal) : IsPlain (.string s)
  | array {items : List Value} (h : ∀ v ∈ items, IsPlain v) : IsPlain (.array items)
  | object {members : List (Literal × Value)} (h : ∀ m ∈ members, IsPlain m.2) : IsPlain (.object members)

open Lexer

theorem spells_compactItems {items : List Value} (h : ∀ v ∈ items, Spells v.compact.toList v.tokens) :
    Spells (compactItems items).toList (itemTokens items) := by
  induction items with
  | nil => exact Spells.nil
  | cons v rest ih =>
    have hv := h v List.mem_cons_self
    have hrest := ih fun w hw => h w (List.mem_cons_of_mem v hw)
    cases rest with
    | nil => exact hv
    | cons w rest =>
      rw [compactItems, itemTokens, String.toList_append, String.toList_append, List.append_assoc]
      · exact hv.append (spells_comma.append hrest)
      · simp
      · simp

theorem spells_compactMembers {members : List (Literal × Value)}
    (h : ∀ m ∈ members, Spells m.2.compact.toList m.2.tokens) :
    Spells (compactMembers members).toList (memberTokens members) := by
  induction members with
  | nil => exact Spells.nil
  | cons m rest ih =>
    obtain ⟨name, v⟩ := m
    have hv : Spells v.compact.toList v.tokens := h (name, v) List.mem_cons_self
    have hrest := ih fun n hn => h n (List.mem_cons_of_mem (name, v) hn)
    have hmember := (spells_literal name).append (spells_colon.append hv)
    cases rest with
    | nil =>
      rw [compactMembers, memberTokens, String.toList_append, String.toList_append, List.append_assoc]
      exact hmember
    | cons n rest =>
      rw [compactMembers, memberTokens]
      · simp only [String.toList_append, List.append_assoc]
        have := hmember.append (spells_comma.append hrest)
        simp only [List.append_assoc, List.cons_append, List.nil_append] at this
        exact this
      · simp
      · simp

theorem spells_compact {v : Value} (h : v.IsPlain) : Spells v.compact.toList v.tokens := by
  induction h with
  | null => exact fun _ => rfl
  | bool b => cases b <;> exact fun _ => rfl
  | string s => exact spells_literal s
  | array h ih =>
    rw [compact, tokens, String.toList_append, String.toList_append, List.append_assoc]
    exact spells_openArray.append ((spells_compactItems ih).append spells_closeArray)
  | object h ih =>
    rw [compact, tokens, String.toList_append, String.toList_append, List.append_assoc]
    exact spells_openObject.append ((spells_compactMembers ih).append spells_closeObject)

end Value

/-! The reader. -/

namespace Reader

open Value (tokens itemTokens memberTokens)

variable {stack : List Frame} {more : List Token}

theorem foldlM_valueOrClose (v : Value) :
    (v.tokens ++ more).foldlM step ⟨stack, .valueOrClose⟩ = (v.tokens ++ more).foldlM step ⟨stack, .value⟩ := by
  cases v <;> rfl

theorem foldlM_firstItem (v : Value) (rest : List Value) :
    (itemTokens (v :: rest)).foldlM step ⟨stack, .valueOrClose⟩ =
      (itemTokens (v :: rest)).foldlM step ⟨stack, .value⟩ := by
  cases rest with
  | nil =>
    have h : (v.tokens ++ []).foldlM step ⟨stack, .valueOrClose⟩ = (v.tokens ++ []).foldlM step ⟨stack, .value⟩ :=
      foldlM_valueOrClose v
    rwa [List.append_nil] at h
  | cons w rest => exact foldlM_valueOrClose v

theorem foldlM_firstMember (m : Literal × Value) (rest : List (Literal × Value)) :
    (memberTokens (m :: rest)).foldlM step ⟨stack, .nameOrClose⟩ =
      (memberTokens (m :: rest)).foldlM step ⟨stack, .name⟩ := by
  cases rest <;> rfl

mutual

theorem foldlM_tokens : ∀ (v : Value) (stack : List Frame),
    v.tokens.foldlM step ⟨stack, .value⟩ = some (put v stack)
  | .null, _ | .bool _, _ | .number _, _ | .string _, _ => rfl
  | .array [], _ => rfl
  | .array (v :: rest), stack => by
    have hopen : step ⟨stack, .value⟩ .openArray = some ⟨.items [] :: stack, .valueOrClose⟩ := rfl
    rw [tokens, List.foldlM_cons, hopen, Option.bind_eq_bind, Option.bind_some, List.foldlM_append,
      foldlM_firstItem, foldlM_itemTokens (v :: rest) (List.cons_ne_nil v rest)]
    simp [step, close?]
  | .object [], _ => rfl
  | .object (m :: rest), stack => by
    have hopen : step ⟨stack, .value⟩ .openObject = some ⟨.members [] :: stack, .nameOrClose⟩ := rfl
    rw [tokens, List.foldlM_cons, hopen, Option.bind_eq_bind, Option.bind_some, List.foldlM_append,
      foldlM_firstMember, foldlM_memberTokens (m :: rest) (List.cons_ne_nil m rest)]
    simp [step, close?]

theorem foldlM_itemTokens : ∀ (items : List Value), items ≠ [] → ∀ (done : List Value) (stack : List Frame),
    (itemTokens items).foldlM step ⟨.items done :: stack, .value⟩ =
      some ⟨.items (items.reverse ++ done) :: stack, .separator⟩
  | [], h, _, _ => absurd rfl h
  | [v], _, done, stack => foldlM_tokens v (.items done :: stack)
  | v :: w :: rest, _, done, stack => by
    have hcomma : step ⟨.items (v :: done) :: stack, .separator⟩ .comma =
      some ⟨.items (v :: done) :: stack, .value⟩ := rfl
    rw [itemTokens, List.foldlM_append, foldlM_tokens v, Option.bind_eq_bind, Option.bind_some, put,
      List.foldlM_cons, hcomma, Option.bind_eq_bind, Option.bind_some,
      foldlM_itemTokens (w :: rest) (List.cons_ne_nil w rest)]
    · simp
    · simp

theorem foldlM_memberTokens : ∀ (members : List (Literal × Value)), members ≠ [] →
    ∀ (done : List (Literal × Value)) (stack : List Frame),
    (memberTokens members).foldlM step ⟨.members done :: stack, .name⟩ =
      some ⟨.members (members.reverse ++ done) :: stack, .separator⟩
  | [], h, _, _ => absurd rfl h
  | [(name, v)], _, done, stack => foldlM_tokens v (.member done name :: stack)
  | (name, v) :: n :: rest, _, done, stack => by
    have hname : ∀ more : List Token,
        (.scalar (.string name) :: .colon :: more : List Token).foldlM step ⟨.members done :: stack, .name⟩ =
          more.foldlM step ⟨.member done name :: stack, .value⟩ := fun _ => rfl
    have hcomma : step ⟨.members ((name, v) :: done) :: stack, .separator⟩ .comma =
      some ⟨.members ((name, v) :: done) :: stack, .name⟩ := rfl
    rw [memberTokens, hname, List.foldlM_append, foldlM_tokens v, Option.bind_eq_bind, Option.bind_some, put,
      List.foldlM_cons, hcomma, Option.bind_eq_bind, Option.bind_some,
      foldlM_memberTokens (n :: rest) (List.cons_ne_nil n rest)]
    · simp
    · simp

end

end Reader

namespace Value

theorem ofTokens?_tokens (v : Value) : ofTokens? v.tokens = some v := by
  rw [ofTokens?, Reader.foldlM_tokens]
  rfl

/-- A value without numbers is read back from its text. -/
theorem parse?_compact {v : Value} (h : v.IsPlain) : parse? v.compact = some v := by
  rw [parse?, Lexer.ofText?_eq_some (spells_compact h), Option.bind_some, ofTokens?_tokens]

end Value

end CrateYard.Json
