import CrateYard.Output.Transcript
import Mathlib.Data.List.Basic
import Mathlib.Tactic.Common

/-! How the pipes of a build are read does not show in what is read from them. The lines of a stream depend on its
bytes alone, so the events of a stream do; the counters do not see the order of the events, and the artifact of a
target is the last one reported for it. -/

namespace CrateYard.Output

namespace LineReader

/-- All lines of some bytes, the one that the end of the bytes ends among them. -/
def lines (b : LineReader) (bytes : List UInt8) : List String :=
  (b.read bytes).2 ++ (b.read bytes).1.finish.2.toList

theorem read_append (b : LineReader) (xs ys : List UInt8) :
    b.read (xs ++ ys) = (((b.read xs).1.read ys).1, (b.read xs).2 ++ ((b.read xs).1.read ys).2) := by
  induction xs generalizing b with
  | nil => rfl
  | cons x rest ih => simp only [List.cons_append, read, ih, List.append_assoc]

theorem lines_append (b : LineReader) (xs ys : List UInt8) :
    b.lines (xs ++ ys) = (b.read xs).2 ++ (b.read xs).1.lines ys := by
  simp only [lines, read_append, List.append_assoc]

end LineReader

namespace Event

/-- The level that an event is counted under. -/
def level? : Event → Option Level
  | .diagnostic d => some d.level
  | _ => none

/-- The artifact that an event reports for a target. -/
def artifactOf? (k : TargetRef) : Event → Option Artifact
  | .artifact a => if a.target = k then some a else none
  | _ => none

end Event

namespace Transcript

variable {t : Transcript} {stream : Stream}

def reader (t : Transcript) : Stream → LineReader
  | .stdout => t.stdout
  | .stderr => t.stderr

/-- The events of a line; it does not matter what was read before it. -/
def lineEvents (line : String) : List Event :=
  (start.readLine line).2

/-- What a transcript holds of an event. -/
def absorb (t : Transcript) : Event → Transcript
  | .diagnostic d => t.count d
  | .artifact a => t.keep a
  | _ => t

def setReader (t : Transcript) (stream : Stream) (reader : LineReader) : Transcript :=
  match stream with
  | .stdout => { t with stdout := reader }
  | .stderr => { t with stderr := reader }

/-- The reads one after the other and then the end of both streams, with all events in order. -/
def run (t : Transcript) : List (Stream × List UInt8) → Transcript × List Event
  | [] => t.close
  | (stream, chunk) :: reads =>
    let (t, events) := t.readChunk stream chunk
    let (t, more) := t.run reads
    (t, events ++ more)

/-- The events of the line that a stream ends with, and the stream. -/
def tail (t : Transcript) (stream : Stream) : List (Stream × Event) :=
  ((t.reader stream).finish.2.toList.flatMap lineEvents).map (stream, ·)

/-- The events of a run, each with the stream that it comes from. -/
def marked (t : Transcript) : List (Stream × List UInt8) → List (Stream × Event)
  | [] => t.tail .stdout ++ t.tail .stderr
  | (stream, chunk) :: reads =>
    (t.readChunk stream chunk).2.map (stream, ·) ++ (t.readChunk stream chunk).1.marked reads

def eventsOf (t : Transcript) (stream : Stream) (reads : List (Stream × List UInt8)) : List Event :=
  ((t.marked reads).filter fun e => e.1 = stream).map Prod.snd

def received (stream : Stream) (reads : List (Stream × List UInt8)) : List UInt8 :=
  (reads.filter fun read => read.1 = stream).flatMap Prod.snd

/-! A line is read without regard to the lines before it, and what it leaves is what its events say. -/

theorem readMessage_eq (t : Transcript) (message : Message) :
    t.readMessage message = ((start.readMessage message).2.foldl absorb t, (start.readMessage message).2) := by
  cases message with
  | compiler packageId report =>
    simp only [readMessage]
    cases report.diagnostic packageId with
    | ok d => rfl
    | error shown => cases shown <;> rfl
  | artifact built => rfl
  | scriptExecuted packageId => rfl
  | finished success => rfl

theorem readText_eq (t : Transcript) (line : List Char) :
    t.readText line = ((start.readText line).2.foldl absorb t, (start.readText line).2) := by
  unfold readText
  by_cases hbar : isProgressBar (Text.stripSequences line) = true
  · simp only [hbar, if_true, List.foldl_nil]
  · simp only [hbar]
    cases plainDiagnostic? (Text.stripSequences line) <;> rfl

theorem readLine_eq (t : Transcript) (line : String) :
    t.readLine line = ((lineEvents line).foldl absorb t, lineEvents line) := by
  unfold lineEvents readLine
  by_cases hblank : (Text.trim (Text.afterErase line.toList)).isEmpty = true
  · simp only [hblank, if_true, List.foldl_nil]
  · simp only [hblank]
    cases Message.parse? (String.ofList (Text.afterErase line.toList)) with
    | some message => exact readMessage_eq t message
    | none => exact readText_eq t _

theorem readLines_eq (t : Transcript) (lines : List String) :
    t.readLines lines = ((lines.flatMap lineEvents).foldl absorb t, lines.flatMap lineEvents) := by
  induction lines generalizing t with
  | nil => rfl
  | cons line rest ih => simp only [readLines, readLine_eq, ih, List.flatMap_cons, List.foldl_append]

/-! What events do to a transcript: they are counted and kept, and no reader sees them. -/

theorem counts_absorbAll (t : Transcript) (events : List Event) :
    (events.foldl absorb t).counts = (events.filterMap Event.level?).foldl Counts.add t.counts := by
  induction events generalizing t with
  | nil => rfl
  | cons e rest ih =>
    rw [List.foldl_cons, ih]
    cases e <;> rfl

theorem get?_absorbAll (t : Transcript) (events : List Event) (k : TargetRef) :
    (events.foldl absorb t).artifacts.get? k =
      (events.filterMap (Event.artifactOf? k)).getLast?.or (t.artifacts.get? k) := by
  induction events generalizing t with
  | nil => rfl
  | cons e rest ih =>
    rw [List.foldl_cons, ih]
    cases e with
    | artifact a =>
      by_cases ha : a.target = k
      · have he : Event.artifactOf? k (.artifact a) = some a := if_pos ha
        rw [List.filterMap_cons_some he, List.getLast?_cons]
        simp [absorb, keep, ha]
      · have he : Event.artifactOf? k (.artifact a) = none := if_neg ha
        rw [List.filterMap_cons_none he]
        simp [absorb, keep, Ne.symm ha]
    | _ => rfl

theorem absorbAll_setReader (t : Transcript) (stream : Stream) (b : LineReader) (events : List Event) :
    events.foldl absorb (t.setReader stream b) = (events.foldl absorb t).setReader stream b := by
  induction events generalizing t with
  | nil => rfl
  | cons e rest ih =>
    have he : (t.setReader stream b).absorb e = (t.absorb e).setReader stream b := by
      cases stream <;> cases e <;> rfl
    rw [List.foldl_cons, he, ih, List.foldl_cons]

/-! The events of a run. -/

theorem readChunk_eq (t : Transcript) (stream : Stream) (chunk : List UInt8) :
    t.readChunk stream chunk =
      ((((t.reader stream).read chunk).2.flatMap lineEvents).foldl absorb
          (t.setReader stream ((t.reader stream).read chunk).1),
        ((t.reader stream).read chunk).2.flatMap lineEvents) := by
  cases stream <;> exact readLines_eq _ _

theorem close_eq (t : Transcript) :
    t.close =
      (((t.stdout.finish.2.toList ++ t.stderr.finish.2.toList).flatMap lineEvents).foldl absorb
          ((t.setReader .stdout .empty).setReader .stderr .empty),
        (t.stdout.finish.2.toList ++ t.stderr.finish.2.toList).flatMap lineEvents) :=
  readLines_eq _ _

theorem reader_absorbAll (t : Transcript) (events : List Event) (stream : Stream) :
    (events.foldl absorb t).reader stream = t.reader stream := by
  induction events generalizing t with
  | nil => rfl
  | cons e rest ih =>
    rw [List.foldl_cons, ih]
    cases e <;> cases stream <;> rfl

theorem reader_setReader (t : Transcript) (stream other : Stream) (b : LineReader) :
    (t.setReader stream b).reader other = if other = stream then b else t.reader other := by
  cases stream <;> cases other <;> rfl

theorem reader_readChunk (t : Transcript) (stream other : Stream) (chunk : List UInt8) :
    (t.readChunk stream chunk).1.reader other =
      if other = stream then ((t.reader stream).read chunk).1 else t.reader other := by
  rw [readChunk_eq, reader_absorbAll, reader_setReader]

theorem map_snd_marked (t : Transcript) (reads : List (Stream × List UInt8)) :
    (t.marked reads).map Prod.snd = (t.run reads).2 := by
  induction reads generalizing t with
  | nil => simp [marked, tail, run, close_eq, reader, Function.comp_def]
  | cons read rest ih =>
    simp only [marked, run, List.map_append, List.map_map, ih]
    simp [Function.comp_def]

theorem run_fst (t : Transcript) (reads : List (Stream × List UInt8)) :
    (t.run reads).1 = (((t.run reads).2.foldl absorb t).setReader .stdout .empty).setReader .stderr .empty := by
  induction reads generalizing t with
  | nil =>
    rw [run, close_eq, absorbAll_setReader, absorbAll_setReader]
  | cons read rest ih =>
    obtain ⟨stream, chunk⟩ := read
    simp only [run, ih, List.foldl_append, readChunk_eq]
    rw [absorbAll_setReader, absorbAll_setReader]
    cases stream <;> rfl

theorem filter_map_mark (stream other : Stream) (events : List Event) :
    (((events.map (stream, ·)).filter fun e => e.1 = other).map Prod.snd) = if stream = other then events else [] := by
  rw [List.filter_map]
  split
  · next h => simp [h, Function.comp_def]
  · next h => simp [h, Function.comp_def]

/-- The events of a stream are those of the lines of its bytes. -/
theorem eventsOf_eq (t : Transcript) (stream : Stream) (reads : List (Stream × List UInt8)) :
    t.eventsOf stream reads = ((t.reader stream).lines (received stream reads)).flatMap lineEvents := by
  unfold eventsOf
  induction reads generalizing t with
  | nil =>
    rw [marked, List.filter_append, List.map_append, tail, tail, filter_map_mark, filter_map_mark]
    cases stream <;> simp [LineReader.lines, LineReader.read, received]
  | cons read rest ih =>
    obtain ⟨other, chunk⟩ := read
    rw [marked, List.filter_append, List.map_append, filter_map_mark, ih, reader_readChunk]
    by_cases h : other = stream
    · subst h
      have hr : received other ((other, chunk) :: rest) = chunk ++ received other rest := by simp [received]
      rw [if_pos rfl, if_pos rfl, hr, LineReader.lines_append, List.flatMap_append, readChunk_eq]
    · have hr : received stream ((other, chunk) :: rest) = received stream rest := by simp [received, h]
      rw [if_neg h, if_neg (Ne.symm h), hr, List.nil_append]

theorem counts_run (t : Transcript) (reads : List (Stream × List UInt8)) :
    (t.run reads).1.counts =
      ((t.eventsOf .stdout reads ++ t.eventsOf .stderr reads).filterMap Event.level?).foldl Counts.add t.counts := by
  have hperm : (t.run reads).2.Perm (t.eventsOf .stdout reads ++ t.eventsOf .stderr reads) := by
    have hne : (fun e : Stream × Event => decide (e.1 = .stderr)) = fun e => !decide (e.1 = .stdout) := by
      funext e
      cases e.1 <;> rfl
    rw [← map_snd_marked, eventsOf, eventsOf, ← List.map_append, hne]
    exact (List.filter_append_perm _ _).symm.map _
  rw [run_fst]
  change ((t.run reads).2.foldl absorb t).counts = _
  rw [counts_absorbAll]
  refine (hperm.filterMap _).foldl_eq' ?_ _
  intro a _ b _ c
  cases a <;> cases b <;> rfl

/-- Where one stream reports no artifact of a target, its artifact is the last that the other stream reports. -/
theorem artifact_run (t : Transcript) (reads : List (Stream × List UInt8)) {k : TargetRef} {stream : Stream}
    (hk : ∀ other, other ≠ stream → ∀ a, .artifact a ∈ t.eventsOf other reads → a.target ≠ k) :
    (t.run reads).1.artifacts.get? k =
      ((t.eventsOf stream reads).filterMap (Event.artifactOf? k)).getLast?.or (t.artifacts.get? k) := by
  rw [run_fst]
  change ((t.run reads).2.foldl absorb t).artifacts.get? k = _
  rw [get?_absorbAll, ← map_snd_marked, eventsOf, List.filterMap_map, List.filterMap_map, List.filterMap_filter]
  congr 2
  refine List.filterMap_congr fun e he => ?_
  split
  · rfl
  · next hne =>
    have hother : e.1 ≠ stream := by simpa using hne
    have hmem : e.2 ∈ t.eventsOf e.1 reads :=
      List.mem_map.2 ⟨e, List.mem_filter.2 ⟨he, decide_eq_true rfl⟩, rfl⟩
    cases hev : e.2 with
    | artifact a => simp [Event.artifactOf?, hev, hk e.1 hother a (hev ▸ hmem)]
    | _ => simp [Event.artifactOf?, hev]

/-- Two runs in which each stream brings the same bytes, in whatever chunks and whatever order, have the same events
of each stream and the same counters, and the same artifacts if no target is reported on both streams. -/
theorem run_of_received_eq {reads reads' : List (Stream × List UInt8)}
    (h : ∀ stream, received stream reads = received stream reads') (t : Transcript) :
    ((t.marked reads).map Prod.snd = (t.run reads).2 ∧ (t.marked reads').map Prod.snd = (t.run reads').2) ∧
    (∀ stream, t.eventsOf stream reads = t.eventsOf stream reads') ∧
    (t.run reads).1.counts = (t.run reads').1.counts ∧
    ((∀ a b, .artifact a ∈ t.eventsOf .stdout reads → .artifact b ∈ t.eventsOf .stderr reads → a.target ≠ b.target) →
      ∀ k, (t.run reads).1.artifacts.get? k = (t.run reads').1.artifacts.get? k) := by
  have hevents : ∀ stream, t.eventsOf stream reads = t.eventsOf stream reads' := fun stream => by
    rw [eventsOf_eq, eventsOf_eq, h]
  refine ⟨⟨map_snd_marked t reads, map_snd_marked t reads'⟩, hevents, ?_, fun hapart k => ?_⟩
  · rw [counts_run, counts_run, hevents, hevents]
  · -- the stream on which `k` is reported, if it is
    obtain ⟨stream, hk⟩ : ∃ stream, ∀ other, other ≠ stream → ∀ a, .artifact a ∈ t.eventsOf other reads →
        a.target ≠ k := by
      by_cases hout : ∃ a, .artifact a ∈ t.eventsOf .stdout reads ∧ a.target = k
      · obtain ⟨a, ha, rfl⟩ := hout
        refine ⟨.stdout, fun other hne b hb => ?_⟩
        cases other with
        | stdout => exact absurd rfl hne
        | stderr => exact (hapart a b ha hb).symm
      · refine ⟨.stderr, fun other hne a ha he => ?_⟩
        cases other with
        | stdout => exact hout ⟨a, ha, he⟩
        | stderr => exact absurd rfl hne
    rw [artifact_run t reads hk, artifact_run t reads' fun other hne a ha => hk other hne a (hevents other ▸ ha),
      hevents]

/-! A record on one stream and an error on the other, read in one go each and in pieces. -/

def appRecord : List UInt8 :=
  ("\x7b\"reason\":\"compiler-artifact\",\"package_id\":\"app\",\"target\":\x7b\"name\":\"app\",\"kind\":[\"bin\"]\x7d," ++
    "\"filenames\":[],\"fresh\":true\x7d\r\n").toUTF8.toList

def appArtifact : Artifact := ⟨⟨"app", "app", ["bin"]⟩, [], none, true⟩

def inOneGo : List (Stream × List UInt8) :=
  [(.stderr, "error: é\r\n".toUTF8.toList), (.stdout, appRecord)]

def inPieces : List (Stream × List UInt8) :=
  [(.stdout, appRecord.take 9), (.stderr, "error: ".toUTF8.toList ++ [195]), (.stdout, appRecord.drop 9),
    (.stderr, [169, 13]), (.stderr, [10])]

theorem run_of_received_eq_pieces :
    (∀ stream, received stream inOneGo = received stream inPieces) ∧
      (start.run inOneGo).1.counts = (start.run inPieces).1.counts ∧
      (start.run inOneGo).1.artifacts.get? appArtifact.target = some appArtifact ∧
      (start.run inPieces).1.artifacts.get? appArtifact.target = some appArtifact := by
  have h : ∀ stream, received stream inOneGo = received stream inPieces := fun stream => by
    cases stream <;> decide +kernel
  obtain ⟨-, -, hcounts, hartifacts⟩ := run_of_received_eq h start
  have herr : start.eventsOf .stderr inOneGo =
      [.output "error: é", .diagnostic ⟨.error, "é", none, none, none, none⟩] := by
    rw [eventsOf_eq]
    decide +kernel
  have hone : (start.run inOneGo).1.artifacts.get? appArtifact.target = some appArtifact := by decide +kernel
  have hkept := hartifacts (fun a b _ hb => by simp [herr] at hb) appArtifact.target
  exact ⟨h, hcounts, hone, hkept.symm.trans hone⟩

end Transcript

end CrateYard.Output
