import CrateYard.Proofs.Output.Interleaving

/-! The lines of a reader are a cut of the bytes: behind each line end, and nowhere else. There is one such cut, so it
does not matter where the chunks end, and no byte but those of the line ends is lost or comes into another line. -/

namespace CrateYard.Output

inductive Ending where
  | feed
  | ret
  | retFeed
deriving DecidableEq, Repr

def Ending.bytes : Ending → List UInt8
  | .feed => [LineReader.lineFeed]
  | .ret => [LineReader.carriageReturn]
  | .retFeed => [LineReader.carriageReturn, LineReader.lineFeed]

/-- A byte that belongs to a line end wherever it stands. -/
def isEnd (byte : UInt8) : Bool :=
  byte = LineReader.lineFeed || byte = LineReader.carriageReturn

/-- Bytes and the lines they are cut into. A line holds no byte of a line end; a return with a feed behind it is one
end; what no end follows is a line unless it is empty. -/
inductive Cut : List UInt8 → List (List UInt8) → Prop
  | nil : Cut [] []
  | tail {line : List UInt8} : line ≠ [] → (∀ byte ∈ line, isEnd byte = false) → Cut line [line]
  | ended {line rest : List UInt8} {lines : List (List UInt8)} (e : Ending) :
      (∀ byte ∈ line, isEnd byte = false) → (e = .ret → rest.head? ≠ some LineReader.lineFeed) →
      Cut rest lines → Cut (line ++ (e.bytes ++ rest)) (line :: lines)

theorem Ending.exists_bytes (e : Ending) : ∃ byte more, e.bytes = byte :: more ∧ isEnd byte = true := by
  cases e with
  | feed => exact ⟨_, _, rfl, rfl⟩
  | ret => exact ⟨_, _, rfl, rfl⟩
  | retFeed => exact ⟨_, _, rfl, rfl⟩

theorem Ending.isEnd_of_mem (e : Ending) {byte : UInt8} (h : byte ∈ e.bytes) : isEnd byte = true := by
  cases e with
  | feed => rw [List.mem_singleton.1 h]; rfl
  | ret => rw [List.mem_singleton.1 h]; rfl
  | retFeed => rcases List.mem_pair.1 h with rfl | rfl <;> rfl

/-- Line ends that are as long as they can be are the same if they stand at one place. -/
theorem Ending.eq_of_append_eq {e e' : Ending} {rest rest' : List UInt8}
    (hmax : e = .ret → rest.head? ≠ some LineReader.lineFeed)
    (hmax' : e' = .ret → rest'.head? ≠ some LineReader.lineFeed) (h : e.bytes ++ rest = e'.bytes ++ rest') :
    e = e' ∧ rest = rest' := by
  have hne : LineReader.lineFeed ≠ LineReader.carriageReturn := by decide
  cases e <;> cases e' <;> simp only [bytes, List.cons_append, List.nil_append, List.cons.injEq] at h
  · exact ⟨rfl, h.2⟩
  · exact absurd h.1 hne
  · exact absurd h.1 hne
  · exact absurd h.1.symm hne
  · exact ⟨rfl, h.2⟩
  · exact absurd (by rw [h.2]; rfl) (hmax rfl)
  · exact absurd h.1.symm hne
  · exact absurd (by rw [← h.2]; rfl) (hmax' rfl)
  · exact ⟨rfl, h.2.2⟩

theorem takeWhile_line {line : List UInt8} (h : ∀ byte ∈ line, isEnd byte = false) (e : Ending) (rest : List UInt8) :
    (line ++ (e.bytes ++ rest)).takeWhile (fun byte => !isEnd byte) = line := by
  obtain ⟨byte, more, hbytes, hend⟩ := e.exists_bytes
  rw [List.takeWhile_append_of_pos fun byte hb => by simp [h byte hb], hbytes, List.cons_append,
    List.takeWhile_cons_of_neg (by simp [hend]), List.append_nil]

namespace Cut

variable {bytes line : List UInt8} {lines lines' : List (List UInt8)}

theorem ne_of_free {free : List UInt8} (h : ∀ byte ∈ free, isEnd byte = false) (line rest : List UInt8) (e : Ending) :
    free ≠ line ++ (e.bytes ++ rest) := by
  rintro rfl
  obtain ⟨byte, more, hbytes, hend⟩ := e.exists_bytes
  rw [h byte (by simp [hbytes])] at hend
  cases hend

/-- Bytes have one cut only. -/
theorem unique (h : Cut bytes lines) (h' : Cut bytes lines') : lines = lines' := by
  induction h generalizing lines' with
  | nil =>
    generalize hb : ([] : List UInt8) = bytes at h'
    cases h' with
    | nil => rfl
    | tail hne _ => exact absurd hb.symm hne
    | ended e _ _ _ => exact absurd hb (ne_of_free (fun _ h => absurd h List.not_mem_nil) _ _ e)
  | @tail line hne hfree =>
    generalize hb : line = bytes at h'
    cases h' with
    | nil => exact absurd hb hne
    | tail => rfl
    | ended e _ _ _ => exact absurd hb (ne_of_free hfree _ _ e)
  | @ended line rest lines e hfree hmax hrest ih =>
    generalize hb : line ++ (e.bytes ++ rest) = bytes at h'
    cases h' with
    | nil => exact absurd hb.symm (ne_of_free (fun _ h => absurd h List.not_mem_nil) _ _ e)
    | tail _ hfree' => exact absurd hb.symm (ne_of_free hfree' _ _ e)
    | @ended line' rest' lines' e' hfree' hmax' hrest' =>
      have hline : line = line' := by
        rw [← takeWhile_line hfree e rest, hb, takeWhile_line hfree' e' rest']
      subst hline
      obtain ⟨-, rfl⟩ := Ending.eq_of_append_eq hmax hmax' (List.append_cancel_left hb)
      rw [ih hrest']

theorem flatten_eq (h : Cut bytes lines) : lines.flatten = bytes.filter fun byte => !isEnd byte := by
  have hline : ∀ line : List UInt8, (∀ byte ∈ line, isEnd byte = false) →
      line.filter (fun byte => !isEnd byte) = line := fun line hfree =>
    List.filter_eq_self.2 fun byte hb => by simp [hfree byte hb]
  induction h with
  | nil => rfl
  | tail hne hfree => rw [hline _ hfree, List.flatten_singleton]
  | ended e hfree hmax hrest ih =>
    have he : e.bytes.filter (fun byte => !isEnd byte) = [] :=
      List.filter_eq_nil_iff.2 fun byte hb => by simp [e.isEnd_of_mem hb]
    rw [List.flatten_cons, ih, List.filter_append, List.filter_append, hline _ hfree, he, List.nil_append]

end Cut

namespace LineReader

variable {b : LineReader}

/-- The text of a line, from its bytes. -/
def text (line : List UInt8) : String :=
  String.ofList (Text.Utf8.decode line)

/-- The lines of chunks that are read one after the other, and the one that the end of the last chunk ends. -/
def readAll (b : LineReader) : List (List UInt8) → List String
  | [] => b.finish.2.toList
  | chunk :: chunks => (b.read chunk).2 ++ (b.read chunk).1.readAll chunks

theorem readAll_eq (b : LineReader) (chunks : List (List UInt8)) : b.readAll chunks = b.lines chunks.flatten := by
  induction chunks generalizing b with
  | nil => rfl
  | cons chunk rest ih => rw [readAll, ih, List.flatten_cons, lines_append]

theorem lines_cons (b : LineReader) (byte : UInt8) (bytes : List UInt8) :
    b.lines (byte :: bytes) = (b.step byte).2.toList ++ (b.step byte).1.lines bytes := by
  simp only [lines, read, List.append_assoc]

/-- A reader in the middle of its bytes: what it holds is the beginning of a line, and behind a return it holds
nothing. -/
structure Ready (b : LineReader) : Prop where
  pending : ∀ byte ∈ b.pending.toList, isEnd byte = false
  afterReturn : b.afterReturn = true → b.pending = #[]

/-- The bytes that are not in a line yet: a feed right behind a return belongs to the end of the line before. -/
def unread (b : LineReader) (bytes : List UInt8) : List UInt8 :=
  b.pending.toList ++ if b.afterReturn = true ∧ bytes.head? = some lineFeed then bytes.tail else bytes

theorem unread_of_not_afterReturn (h : b.afterReturn = false) (bytes : List UInt8) :
    b.unread bytes = b.pending.toList ++ bytes := by
  simp [unread, h]

theorem unread_cons_of_ne {byte : UInt8} (h : byte ≠ lineFeed) (bytes : List UInt8) :
    b.unread (byte :: bytes) = b.pending.toList ++ byte :: bytes := by
  simp [unread, h]

theorem ready_nil (afterReturn : Bool) : Ready ⟨#[], afterReturn⟩ :=
  ⟨fun _ hb => absurd hb List.not_mem_nil, fun _ => rfl⟩

theorem exists_cut_return {line bytes : List UInt8} {lines : List (List UInt8)}
    (hfree : ∀ byte ∈ line, isEnd byte = false) (h : Cut ((⟨#[], true⟩ : LineReader).unread bytes) lines) :
    Cut (line ++ carriageReturn :: bytes) (line :: lines) := by
  by_cases hfeed : bytes.head? = some lineFeed
  · obtain ⟨rest, rfl⟩ := List.head?_eq_some_iff.1 hfeed
    exact .ended .retFeed hfree (fun he => by cases he) (by simpa [unread] using h)
  · exact .ended .ret hfree (fun _ => hfeed) (by simpa [unread, hfeed] using h)

/-- The lines that are still to come are a cut of the bytes that are not in a line yet. -/
theorem exists_cut (hb : b.Ready) (bytes : List UInt8) :
    ∃ lines, Cut (b.unread bytes) lines ∧ b.lines bytes = lines.map text := by
  induction bytes generalizing b with
  | nil =>
    have hunread : b.unread [] = b.pending.toList := by simp [unread]
    rw [hunread]
    by_cases hempty : b.pending.isEmpty = true
    · have hnil : b.pending = #[] := Array.isEmpty_iff.1 hempty
      exact ⟨[], by rw [hnil]; exact .nil, by simp [lines, read, finish, hnil]⟩
    · have hne : b.pending.toList ≠ [] := by simpa using hempty
      exact ⟨[b.pending.toList], .tail hne hb.pending, by simp [lines, read, finish, hempty, text, line]⟩
  | cons byte bytes ih =>
    rw [lines_cons]
    by_cases hfeed : byte = lineFeed
    · subst hfeed
      cases hret : b.afterReturn with
      | true =>
        -- the second half of a line end
        have hpending := hb.afterReturn hret
        obtain ⟨lines, hcut, htexts⟩ := ih (b := { b with afterReturn := false }) ⟨hb.pending, fun h => by cases h⟩
        refine ⟨lines, ?_, by simpa [step, hret] using htexts⟩
        simpa [unread, hret, hpending] using hcut
      | false =>
        obtain ⟨lines, hcut, htexts⟩ := ih (ready_nil false)
        refine ⟨b.pending.toList :: lines, ?_, ?_⟩
        · rw [unread_of_not_afterReturn hret]
          exact .ended .feed hb.pending (fun he => by cases he) (by simpa [unread, empty] using hcut)
        · rw [List.map_cons, ← htexts]
          simp [step, hret, text, line]
    · rw [unread_cons_of_ne hfeed]
      by_cases hret : byte = carriageReturn
      · subst hret
        obtain ⟨lines, hcut, htexts⟩ := ih (ready_nil true)
        refine ⟨b.pending.toList :: lines, exists_cut_return hb.pending hcut, ?_⟩
        rw [List.map_cons, ← htexts]
        simp [step, hfeed, text, line]
      · have hready : Ready ⟨b.pending.push byte, false⟩ := by
          refine ⟨fun c hc => ?_, fun h => by cases h⟩
          rcases List.mem_append.1 (Array.toList_push ▸ hc) with hc | hc
          · exact hb.pending c hc
          · rw [List.mem_singleton.1 hc]
            simp [isEnd, hfeed, hret]
        obtain ⟨lines, hcut, htexts⟩ := ih hready
        refine ⟨lines, by simpa [unread] using hcut, ?_⟩
        simpa [step, hfeed, hret] using htexts

/-- Whatever the chunks are that bytes come in, the lines that are read from them and the one that their end ends are
those of the cut of all bytes, each decoded. There is no other cut of the bytes, and in its lines stand all of them but
those of the line ends, in order. -/
theorem readAll_eq_cut (chunks : List (List UInt8)) :
    ∃ lines, Cut chunks.flatten lines ∧ (∀ other, Cut chunks.flatten other → other = lines) ∧
      empty.readAll chunks = lines.map text ∧
      lines.flatten = chunks.flatten.filter fun byte => !isEnd byte := by
  obtain ⟨lines, hcut, htexts⟩ := exists_cut (b := empty) (ready_nil false) chunks.flatten
  have hall : empty.unread chunks.flatten = chunks.flatten := by simp [unread, empty]
  rw [hall] at hcut
  exact ⟨lines, hcut, fun other hother => hother.unique hcut, (readAll_eq empty chunks).trans htexts, hcut.flatten_eq⟩

/-- Two returns and a feed are two line ends, also where the chunk ends between them. -/
example : empty.readAll [[104, 105, 13], [13], [], [10, 10, 13], [120]] = ["hi", "", "", "", "x"] := by decide

end LineReader

end CrateYard.Output
