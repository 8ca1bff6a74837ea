import CrateYard.Proofs.Output.Lines
import CrateYard.Proofs.Text.Utf8

/-! Lines of bytes and lines of text. Bytes that are no text are decoded with a replacement for each part that is not;
a byte of a line end begins no such part and belongs to none, so it is read as itself wherever it stands. Hence it does
not matter whether bytes are cut into lines before they are decoded or after. -/

namespace CrateYard

namespace Text

def isLineEnd (c : Char) : Bool :=
  c = '\n' || c = '\r'

/-- The lines of a text that have an end, and what is behind the last end. A line feed ends a line, and a carriage
return does, with a line feed behind it or alone. -/
def cutLines : List Char → List (List Char) × List Char
  | [] => ([], [])
  | '\r' :: '\n' :: rest => ([] :: (cutLines rest).1, (cutLines rest).2)
  | c :: rest =>
    if isLineEnd c then ([] :: (cutLines rest).1, (cutLines rest).2)
    else match cutLines rest with
      | ([], tail) => ([], c :: tail)
      | (line :: lines, tail) => ((c :: line) :: lines, tail)

variable {line rest : List Char}

theorem cutLines_cons_of_not_isLineEnd {c : Char} (h : isLineEnd c = false) (rest : List Char) :
    cutLines (c :: rest) = match cutLines rest with
      | ([], tail) => ([], c :: tail)
      | (line :: lines, tail) => ((c :: line) :: lines, tail) := by
  have hne : c ≠ '\r' := by rintro rfl; cases h
  rw [cutLines]
  · simp [h]
  · exact fun _ he => absurd he hne

theorem cutLines_of_free (h : ∀ c ∈ line, isLineEnd c = false) : cutLines line = ([], line) := by
  induction line with
  | nil => rfl
  | cons c line ih =>
    rw [cutLines_cons_of_not_isLineEnd (h c List.mem_cons_self),
      ih fun d hd => h d (List.mem_cons_of_mem c hd)]

theorem cutLines_append {lines : List (List Char)} {first tail : List Char} (h : ∀ c ∈ line, isLineEnd c = false)
    (hrest : cutLines rest = (first :: lines, tail)) : cutLines (line ++ rest) = ((line ++ first) :: lines, tail) := by
  induction line with
  | nil => exact hrest
  | cons c line ih =>
    rw [List.cons_append, cutLines_cons_of_not_isLineEnd (h c List.mem_cons_self),
      ih fun d hd => h d (List.mem_cons_of_mem c hd)]
    rfl

theorem cutLines_feed (rest : List Char) : cutLines ('\n' :: rest) = ([] :: (cutLines rest).1, (cutLines rest).2) := by
  rw [cutLines]
  · rfl
  · simp

theorem cutLines_return (h : rest.head? ≠ some '\n') :
    cutLines ('\r' :: rest) = ([] :: (cutLines rest).1, (cutLines rest).2) := by
  rw [cutLines]
  · rfl
  · rintro more - rfl
    simp at h

theorem cutLines_returnFeed (rest : List Char) :
    cutLines ('\r' :: '\n' :: rest) = ([] :: (cutLines rest).1, (cutLines rest).2) := by
  rw [cutLines]

theorem flatten_cutLines (text : List Char) :
    (cutLines text).1.flatten ++ (cutLines text).2 = text.filter fun c => !isLineEnd c := by
  fun_induction cutLines text with
  | case1 => rfl
  | case2 rest ih => simpa [isLineEnd] using ih
  | case3 c rest _ hend ih => simpa [hend] using ih
  | case4 c rest _ hend tail htail ih => simpa [hend, htail] using ih
  | case5 c rest _ hend line lines tail htail ih => simpa [hend, htail] using ih

end Text

namespace Output

open Text (cutLines isLineEnd)
open Text.Utf8 (decode)

/-- The byte of a line end is read as a character that ends a line, and no other byte of ASCII is. -/
theorem isLineEnd_ofNat {byte : UInt8} (h : byte.toNat < 0x80) : isLineEnd (Char.ofNat byte.toNat) = isEnd byte := by
  have hchar : ∀ {n : Nat} {c : Char}, n < 0x80 → c.toNat = n → (Char.ofNat byte.toNat = c ↔ byte.toNat = n) := by
    rintro n c hn rfl
    constructor
    · rintro rfl
      exact (Text.Utf8.toNat_ofNat (.inl (by omega))).symm
    · intro heq
      rw [heq, Char.ofNat_toNat]
  have hfeed : Char.ofNat byte.toNat = '\n' ↔ byte = LineReader.lineFeed := by
    rw [hchar (n := 10) (by decide) rfl, ← UInt8.toNat_inj]
    rfl
  have hreturn : Char.ofNat byte.toNat = '\r' ↔ byte = LineReader.carriageReturn := by
    rw [hchar (n := 13) (by decide) rfl, ← UInt8.toNat_inj]
    rfl
  simp only [isLineEnd, isEnd, hfeed, hreturn]

theorem toNat_lt_of_isEnd {byte : UInt8} (h : isEnd byte = true) : byte.toNat < 0x80 := by
  have hbyte : byte = LineReader.lineFeed ∨ byte = LineReader.carriageReturn := by simpa [isEnd] using h
  rcases hbyte with rfl | rfl <;> decide

theorem not_isLineEnd_of_le {c : Char} (h : 0x80 ≤ c.toNat) : isLineEnd c = false := by
  rw [isLineEnd, Bool.or_eq_false_iff, decide_eq_false_iff_not, decide_eq_false_iff_not]
  constructor <;> rintro rfl <;> exact absurd h (by decide)

theorem not_isLineEnd_of_mem_decode {bytes : List UInt8} (h : ∀ byte ∈ bytes, isEnd byte = false) :
    ∀ c ∈ decode bytes, isLineEnd c = false := by
  intro c hc
  rcases Text.Utf8.readFrom_decodeFrom Text.Utf8.good_none hc with ⟨byte, hbyte, hlow, rfl⟩ | hwide
  · rw [isLineEnd_ofNat hlow, h byte hbyte]
  · exact not_isLineEnd_of_le hwide

theorem head?_decode_ne {bytes : List UInt8} (h : bytes.head? ≠ some LineReader.lineFeed) :
    (decode bytes).head? ≠ some '\n' := by
  cases bytes with
  | nil => exact nofun
  | cons byte bytes =>
    obtain ⟨c, more, hdecode, hc⟩ := Text.Utf8.exists_decode_cons byte bytes
    rw [hdecode, List.head?_cons]
    rintro ⟨⟩
    rcases hc with ⟨hlow, hc⟩ | hwide
    · have hnat := Text.Utf8.toNat_ofNat (n := byte.toNat) (.inl (by omega))
      rw [← hc] at hnat
      exact h (congrArg some (UInt8.toNat_inj.1 hnat.symm))
    · exact absurd hwide (by decide)

namespace LineReader

variable {b : LineReader}

/-- The lines that end in chunks which are read one after the other, and the reader behind them. -/
def readChunks (b : LineReader) : List (List UInt8) → LineReader × List String
  | [] => (b, [])
  | chunk :: chunks =>
    (((b.read chunk).1.readChunks chunks).1, (b.read chunk).2 ++ ((b.read chunk).1.readChunks chunks).2)

theorem readChunks_eq (b : LineReader) (chunks : List (List UInt8)) : b.readChunks chunks = b.read chunks.flatten := by
  induction chunks generalizing b with
  | nil => rfl
  | cons chunk rest ih => rw [readChunks, List.flatten_cons, read_append, ih]

theorem cutLines_decode_ended {line rest : List UInt8} {lines : List (List Char)} {tail : List Char}
    (hfree : ∀ byte ∈ line, isEnd byte = false) {byte : UInt8} (hend : isEnd byte = true)
    (hcut : cutLines (Char.ofNat byte.toNat :: decode rest) = ([] :: lines, tail)) :
    cutLines (decode (line ++ byte :: rest)) = (decode line :: lines, tail) := by
  rw [Text.Utf8.decode_append_cons _ _ (toNat_lt_of_isEnd hend)]
  simpa using Text.cutLines_append (not_isLineEnd_of_mem_decode hfree) hcut

theorem cutLines_decode_feed {line : List UInt8} (hfree : ∀ byte ∈ line, isEnd byte = false) (rest : List UInt8) :
    cutLines (decode (line ++ lineFeed :: rest)) =
      (decode line :: (cutLines (decode rest)).1, (cutLines (decode rest)).2) :=
  cutLines_decode_ended hfree (show isEnd lineFeed = true from rfl) (Text.cutLines_feed (decode rest))

theorem cutLines_decode_return {line : List UInt8} (hfree : ∀ byte ∈ line, isEnd byte = false) (rest : List UInt8) :
    cutLines (decode (line ++ carriageReturn :: rest)) =
      (decode line :: (cutLines (decode (unread ⟨#[], true⟩ rest))).1,
        (cutLines (decode (unread ⟨#[], true⟩ rest))).2) := by
  have hreturn : Char.ofNat carriageReturn.toNat = '\r' := rfl
  apply cutLines_decode_ended hfree (show isEnd carriageReturn = true from rfl)
  rw [hreturn]
  by_cases hhead : rest.head? = some lineFeed
  · obtain ⟨more, rfl⟩ := List.head?_eq_some_iff.1 hhead
    have hmore : decode (lineFeed :: more) = '\n' :: decode more :=
      Text.Utf8.decode_append_cons (b := lineFeed) [] more (by decide)
    rw [hmore]
    simpa [unread] using Text.cutLines_returnFeed (decode more)
  · simpa [unread, hhead] using Text.cutLines_return (head?_decode_ne hhead)

/-- The lines that end in the bytes, and what is left in the reader, are those of the text that the bytes are read as. -/
theorem cutLines_decode_unread (hb : b.Ready) (bytes : List UInt8) :
    cutLines (decode (b.unread bytes)) =
      ((b.read bytes).2.map String.toList, decode (b.read bytes).1.pending.toList) := by
  induction bytes generalizing b with
  | nil =>
    have hunread : b.unread [] = b.pending.toList := by simp [unread]
    rw [hunread, Text.cutLines_of_free (not_isLineEnd_of_mem_decode hb.pending)]
    rfl
  | cons byte bytes ih =>
    by_cases hfeed : byte = lineFeed
    · subst hfeed
      cases hret : b.afterReturn with
      | true =>
        -- the second half of a line end
        have hpending := hb.afterReturn hret
        have hrest := ih (b := { b with afterReturn := false }) ⟨hb.pending, fun h => by cases h⟩
        have hunread : b.unread (lineFeed :: bytes) = bytes := by simp [unread, hret, hpending]
        have hunread' : unread { b with afterReturn := false } bytes = bytes := by simp [unread, hpending]
        rw [hunread'] at hrest
        rw [hunread, hrest]
        simp [read, step, hret]
      | false =>
        have hrest := ih (ready_nil false)
        have hunread' : unread ⟨#[], false⟩ bytes = bytes := by simp [unread]
        rw [hunread'] at hrest
        rw [unread_of_not_afterReturn hret, cutLines_decode_feed hb.pending, hrest]
        simp [read, step, hret, line]
    · rw [unread_cons_of_ne hfeed]
      by_cases hret : byte = carriageReturn
      · subst hret
        rw [cutLines_decode_return hb.pending, ih (ready_nil true)]
        simp [read, step, hfeed, line]
      · have hready : Ready ⟨b.pending.push byte, false⟩ := by
          refine ⟨fun c hc => ?_, fun h => by cases h⟩
          rcases List.mem_append.1 (Array.toList_push ▸ hc) with hc | hc
          · exact hb.pending c hc
          · rw [List.mem_singleton.1 hc]
            simp [isEnd, hfeed, hret]
        have hrest := ih hready
        rw [unread_of_not_afterReturn rfl, Array.toList_push, List.append_assoc, List.singleton_append] at hrest
        rw [hrest]
        simp [read, step, hfeed, hret]

/-- Whatever the chunks are that bytes come in, the lines that end in them and the one that their end leaves are those
of the text that all bytes together are read as. A byte of a line end is read as itself, whatever part of a character
stands before it, and what stands before it and behind it is read as if it stood alone; so the lines hold all that is
read but the line ends, replacements included. -/
theorem lines_of_decoded (chunks : List (List UInt8)) :
    (∃ lines tail, cutLines (decode chunks.flatten) = (lines, tail) ∧
      (empty.readChunks chunks).2 = lines.map String.ofList ∧
      (empty.readChunks chunks).1.finish.2 = (if tail.isEmpty then none else some (String.ofList tail)) ∧
      lines.flatten ++ tail = (decode chunks.flatten).filter fun c => !isLineEnd c) ∧
    ∀ (before after : List UInt8) (byte : UInt8), isEnd byte = true →
      decode (before ++ byte :: after) = decode before ++ Char.ofNat byte.toNat :: decode after ∧
        (decode (before ++ byte :: after)).count Text.Utf8.replacement =
          (decode before).count Text.Utf8.replacement + (decode after).count Text.Utf8.replacement := by
  constructor
  · have hcut := cutLines_decode_unread (ready_nil false) chunks.flatten
    have hall : unread ⟨#[], false⟩ chunks.flatten = chunks.flatten := by simp [unread]
    rw [hall] at hcut
    have hflatten := Text.flatten_cutLines (decode chunks.flatten)
    rw [hcut] at hflatten
    refine ⟨_, _, hcut, ?_, ?_, hflatten⟩
    · simp [readChunks_eq, empty]
    · simp [readChunks_eq, empty, finish, line, Text.Utf8.decode_eq_nil_iff]
  · intro before after byte hend
    have hdecode := Text.Utf8.decode_append_cons before after (toNat_lt_of_isEnd hend)
    refine ⟨hdecode, ?_⟩
    have hne : Char.ofNat byte.toNat ≠ Text.Utf8.replacement := by
      intro h
      have hlast := isLineEnd_ofNat (toNat_lt_of_isEnd hend)
      rw [h, hend] at hlast
      exact absurd hlast (by decide)
    rw [hdecode, List.count_append, List.count_cons_of_ne hne]

/-! A character cut short before a line end that lies in two chunks, and one byte that begins none behind it. -/

def cutShort : List (List UInt8) := [[0xE2, 0x86, 13], [10, 0xA9]]

theorem lines_of_decoded_cutShort :
    (empty.readChunks cutShort).2 = ["\uFFFD"] ∧ (empty.readChunks cutShort).1.finish.2 = some "\uFFFD" ∧
      decode cutShort.flatten = decode [0xE2, 0x86] ++ '\r' :: decode [10, 0xA9] := by
  obtain ⟨⟨lines, tail, hcut, hlines, htail, -⟩, hends⟩ := lines_of_decoded cutShort
  have hsplit : cutLines (decode cutShort.flatten) = ([['\uFFFD']], ['\uFFFD']) := by decide
  cases hcut.symm.trans hsplit
  exact ⟨hlines, htail, (hends [0xE2, 0x86] [10, 0xA9] 13 rfl).1⟩

end LineReader

end Output

end CrateYard
