import CrateYard.Output.Transcript
import CrateYard.Proofs.Json.Characters
import Mathlib.Data.List.TakeWhile

/-! Erase codes and machine records. A line that is drawn over another one is read from its last erase code on. A record
has no escape character, and so no erase code, anywhere in its text: it is read whole, and whatever was drawn before it
makes no difference. -/

namespace CrateYard

namespace Text

variable {text : List Char}

theorem afterErase?_eq_none (h : esc ∉ text) : afterErase? text = none := by
  induction text with
  | nil => rfl
  | cons c rest ih =>
    rw [List.mem_cons, not_or] at h
    rw [afterErase?, ih h.2, eraseLine, dropPrefix?, if_neg h.1]

theorem afterErase_eq_self (h : esc ∉ text) : afterErase text = text := by
  rw [afterErase, afterErase?_eq_none h, Option.getD_none]

/-- The last erase code is the one in front of a text that has none. -/
theorem afterErase?_append_eraseLine (h : esc ∉ text) (before : List Char) :
    afterErase? (before ++ eraseLine ++ text) = some text := by
  induction before with
  | nil =>
    have hbracket : esc ≠ '[' := by decide
    have hletter : esc ≠ 'K' := by decide
    simp [eraseLine, afterErase?, afterErase?_eq_none h, dropPrefix?, hbracket, hletter]
  | cons c before ih => rw [List.cons_append, List.cons_append, afterErase?, ih]

theorem afterErase_append_eraseLine (h : esc ∉ text) (before : List Char) :
    afterErase (before ++ eraseLine ++ text) = text := by
  rw [afterErase, afterErase?_append_eraseLine h, Option.getD_some]

end Text

namespace Output

variable {line : String} {message : Message}

/-- A record is a JSON text whose first character behind white space opens an object. -/
theorem Message.of_parse? (h : parse? line = some message) :
    (Text.trimStart line.toList).head? = some '\x7b' ∧ ∃ v, Json.Value.parse? line = some v := by
  rw [parse?] at h
  split at h
  · next hopen =>
    cases hv : Json.Value.parse? line with
    | none =>
      rw [hv] at h
      cases h
    | some v => exact ⟨hopen, v, rfl⟩
  · cases h

theorem Message.esc_notMem_of_parse? (h : parse? line = some message) : Text.esc ∉ line.toList := by
  obtain ⟨-, v, hv⟩ := of_parse? h
  exact fun hesc => Json.Value.not_isControl_of_parse? hv Text.esc hesc (by unfold Json.IsControl; decide)

theorem Message.not_isBlank_of_parse? (h : parse? line = some message) : (Text.trim line.toList).isEmpty = false := by
  obtain ⟨hopen, -⟩ := of_parse? h
  obtain ⟨rest, hstart⟩ := List.head?_eq_some_iff.1 hopen
  have hbrace : Text.isBlank '\x7b' = false := by decide
  rw [Text.trim, hstart, Text.trimEnd, List.isEmpty_reverse, List.isEmpty_eq_false_iff, Ne, List.dropWhile_eq_nil_iff]
  intro hall
  rw [hall _ (by simp)] at hbrace
  cases hbrace

/-- A line that is a record stands for itself, also behind anything that is erased: it does what the record does. -/
theorem Transcript.readLine_of_record (h : Message.parse? line = some message) :
    Text.afterErase line.toList = line.toList ∧
    ∀ (t : Transcript) (before : String),
      t.readLine (before ++ String.ofList Text.eraseLine ++ line) = t.readLine line ∧
      t.readLine line = t.readMessage message := by
  have hesc := Message.esc_notMem_of_parse? h
  have hself := Text.afterErase_eq_self hesc
  refine ⟨hself, fun t before => ⟨?_, ?_⟩⟩
  · have hbehind : Text.afterErase (before ++ String.ofList Text.eraseLine ++ line).toList = line.toList := by
      simpa using Text.afterErase_append_eraseLine hesc before.toList
    rw [readLine, hbehind, readLine, hself]
  · rw [readLine, hself, if_neg (by simp [Message.not_isBlank_of_parse? h]), String.ofList_toList, h]

/-- A record whose package is named with an erase code. In the line it is spelled without the character. -/
def escapedRecord : String :=
  "\x7b\"reason\":\"build-script-executed\",\"package_id\":\"a\\u001b[Kb\",\"env\":[\x7b\"\\u001b[K\":null\x7d]\x7d"

theorem Transcript.readLine_of_record_escaped :
    Message.parse? escapedRecord = some (.scriptExecuted "a\x1b[Kb") ∧
    ∀ t : Transcript, t.readLine ("Building [=> ]" ++ String.ofList Text.eraseLine ++ escapedRecord) =
      (t, [.scriptExecuted "a\x1b[Kb"]) := by
  have hparse : Message.parse? escapedRecord = some (.scriptExecuted "a\x1b[Kb") := by decide
  refine ⟨hparse, fun t => ?_⟩
  obtain ⟨hbehind, hrecord⟩ := (readLine_of_record hparse).2 t "Building [=> ]"
  rw [hbehind, hrecord, readMessage]

end Output

end CrateYard
