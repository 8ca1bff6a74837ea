import CrateYard.Build.Run
import CrateYard.Proofs.Build.Tally
import CrateYard.Proofs.Output.Grammar

/-! What is shown of the diagnostics that a build counts. One in plain text is shown as the line that it stands in, and
one from a record as the record renders it. A record that renders nothing is counted all the same, and then nothing is
shown. -/

namespace CrateYard

namespace Output

/-- What erasing leaves to be seen of a line. -/
def visible (line : String) : String :=
  String.ofList (Text.afterErase line.toList)

/-- The text of a diagnostic: as the compiler renders it, or else its level, code and message. -/
def Diagnostic.text (d : Diagnostic) : String :=
  match d.rendered with
  | some rendered => Output.plainText rendered
  | none => String.ofList d.plainText

/-- The texts that a build shows of an event. -/
def Event.texts : Event → List String
  | .output text => [text]
  | .diagnostic d => (d.rendered.map plainText).toList
  | _ => []

theorem text_of_plainDiagnostic? {text : List Char} {d : Diagnostic} (h : plainDiagnostic? text = some d) :
    d.rendered = none ∧ d.text = String.ofList text := by
  obtain ⟨-, h⟩ := Option.ite_none_left_eq_some.1 h
  obtain ⟨⟨level, rest⟩, hlevel, h⟩ := Option.bind_eq_some_iff.1 h
  rcases hbracketed : bracketed rest with ⟨code, tail⟩
  simp only [hbracketed] at h
  obtain ⟨message, hcolon, h⟩ := Option.bind_eq_some_iff.1 h
  obtain ⟨-, he⟩ := Option.ite_none_left_eq_some.1 h
  cases he
  refine ⟨rfl, congrArg String.ofList ?_⟩
  rw [level?_eq_some_iff.1 hlevel, (eq_of_bracketed hbracketed).1, Text.dropPrefix?_eq_some_iff.1 hcolon]
  simp only [Diagnostic.plainText, String.toList_ofList, List.append_assoc]

namespace Transcript

variable {line : String} {d : Diagnostic}

def shown (line : String) : List String :=
  (lineEvents line).flatMap Event.texts

/-- The line is the record of a report without a rendered form. -/
def IsUnrendered (line : String) : Prop :=
  ∃ packageId report, Message.parse? (visible line) = some (.compiler packageId report) ∧ report.rendered = none

/-- What a run is given: the chunks that are read, and then the end of both streams. -/
def inputs (reads : List (Stream × List UInt8)) : List Input :=
  reads.map (fun read => .chunk read.1 read.2) ++ [.close]

theorem feedAll_inputs (t : Transcript) (reads : List (Stream × List UInt8)) :
    t.feedAll (inputs reads) = t.run reads := by
  induction reads generalizing t with
  | nil => exact Prod.ext rfl (List.append_nil _)
  | cons read rest ih =>
    simp only [inputs, List.map_cons, List.cons_append, feedAll, run, feed] at ih ⊢
    rw [ih]

/-! Where a diagnostic of a line comes from: a report of the compiler, which is shown as it was rendered, or a text,
which is shown itself. -/

theorem eq_of_diagnostic? {packageId : String} {report : Report} (h : report.diagnostic packageId = .ok d) :
    d.rendered = report.rendered.map plainText := by
  unfold Report.diagnostic at h
  split at h
  · cases h
  · split at h
    · cases h
    · cases h
      rfl

theorem diagnostic_of_readMessage {message : Message} (h : .diagnostic d ∈ (start.readMessage message).2) :
    ∃ packageId report, message = .compiler packageId report ∧ (start.readMessage message).2 = [.diagnostic d] ∧
      d.rendered = report.rendered.map plainText := by
  cases message with
  | compiler packageId report =>
    simp only [readMessage] at h ⊢
    cases hreport : report.diagnostic packageId with
    | error text => cases text <;> simp [hreport] at h
    | ok other =>
      obtain rfl : d = other := by simpa [hreport] using h
      exact ⟨packageId, report, rfl, rfl, eq_of_diagnostic? hreport⟩
  | artifact built => simp [readMessage] at h
  | scriptExecuted packageId => simp [readMessage] at h
  | finished success => simp [readMessage] at h

theorem diagnostic_of_readText {text : List Char} (h : .diagnostic d ∈ (start.readText text).2) :
    (start.readText text).2 = [.output d.text, .diagnostic d] ∧ d.rendered = none := by
  unfold readText at h ⊢
  by_cases hbar : isProgressBar (Text.stripSequences text) = true
  · simp [hbar] at h
  · cases hplain : plainDiagnostic? (Text.stripSequences text) with
    | none => simp [hbar, hplain] at h
    | some other =>
      obtain rfl : d = other := by simpa [hbar, hplain] using h
      obtain ⟨hrendered, htext⟩ := text_of_plainDiagnostic? hplain
      simp [hbar, hplain, htext, hrendered]

theorem diagnostic_of_lineEvents (h : .diagnostic d ∈ lineEvents line) :
    (∃ packageId report, Message.parse? (visible line) = some (.compiler packageId report) ∧
      lineEvents line = [.diagnostic d] ∧ d.rendered = report.rendered.map plainText) ∨
    (Message.parse? (visible line) = none ∧ lineEvents line = [.output d.text, .diagnostic d] ∧ d.rendered = none) := by
  unfold lineEvents readLine at h ⊢
  have hvisible : String.ofList (Text.afterErase line.toList) = visible line := rfl
  by_cases hblank : (Text.trim (Text.afterErase line.toList)).isEmpty = true
  · simp [hblank] at h
  · simp only [hblank, hvisible] at h ⊢
    cases hparse : Message.parse? (visible line) with
    | some message =>
      rw [hparse] at h
      obtain ⟨packageId, report, rfl, hevents, hrendered⟩ := diagnostic_of_readMessage h
      exact .inl ⟨packageId, report, rfl, hevents, hrendered⟩
    | none =>
      rw [hparse] at h
      obtain ⟨hevents, hrendered⟩ := diagnostic_of_readText h
      exact .inr ⟨rfl, hevents, hrendered⟩

theorem shown_of_diagnostic (h : .diagnostic d ∈ lineEvents line) :
    (¬ IsUnrendered line → shown line = [d.text]) ∧ (IsUnrendered line → shown line = []) := by
  rcases diagnostic_of_lineEvents h with ⟨packageId, report, hparse, hevents, hrendered⟩ | ⟨hparse, hevents, hrendered⟩
  · have hshown : shown line = ((report.rendered.map plainText).map plainText).toList := by
      simp [shown, hevents, Event.texts, hrendered]
    rw [hshown]
    constructor
    · intro hun
      cases hreport : report.rendered with
      | none => exact absurd ⟨packageId, report, hparse, hreport⟩ hun
      | some text => simp [Diagnostic.text, hrendered, hreport]
    · rintro ⟨packageId', report', hparse', hnone⟩
      cases hparse.symm.trans hparse'
      rw [hnone]
      rfl
  · refine ⟨fun _ => by simp [shown, hevents, Event.texts, hrendered], ?_⟩
    rintro ⟨packageId', report', hparse', -⟩
    cases hparse.symm.trans hparse'

end Transcript

end Output

namespace Build

open Output (Event Transcript Stream)

namespace Site

variable (s : Site) (lane : Lane) (b : Nat)

/-- A text of a build, as it is told on its lane. -/
def telling (lane : Lane) (b : Nat) (text : String) : Notice :=
  .published lane.number (.progress (idText b) text)

theorem notices_progress (text : String) : (s.progress lane b text).notices = s.notices ++ [telling lane b text] := rfl

theorem notices_report (e : Event) : (s.report lane b e).notices = s.notices ++ e.texts.map (telling lane b) := by
  cases e with
  | output text => exact notices_progress s lane b text
  | diagnostic d =>
    simp only [report, Event.texts]
    cases d.level <;> cases d.rendered <;> simp [addErrors, addWarnings, update, notices_progress]
  | artifact a => exact (List.append_nil _).symm
  | scriptExecuted id => exact (List.append_nil _).symm
  | finished success => exact (List.append_nil _).symm

theorem notices_reportAll (events : List Event) :
    (s.reportAll lane b events).notices = s.notices ++ (events.flatMap Event.texts).map (telling lane b) := by
  induction events generalizing s with
  | nil => exact (List.append_nil _).symm
  | cons e rest ih =>
    change ((s.report lane b e).reportAll lane b rest).notices = _
    rw [ih, notices_report, List.flatMap_cons, List.map_append, List.append_assoc]

theorem readAll_eq (reads : List (Stream × List UInt8)) :
    s.readAll lane b reads = (s.reportAll lane b (Transcript.start.run reads).2, (Transcript.start.run reads).1) := by
  unfold readAll
  generalize Transcript.start = t
  induction reads generalizing s t with
  | nil => rfl
  | cons read rest ih =>
    refine (ih (s.readChunk lane b t read).1 (s.readChunk lane b t read).2).trans ?_
    simp only [readChunk, Transcript.run, reportAll, List.foldl_append]

end Site

/-- Whatever a process prints, its build counts the diagnostics among the events of its lines and shows the texts of
these lines in order. A line has at most one diagnostic, and shows exactly its text, unless it is a record of the
compiler that renders nothing: then nothing is shown of the diagnostic that is counted. -/
theorem diagnostics_shown_iff (s : Site) (lane : Lane) (b : Nat) (reads : List (Stream × List UInt8)) :
    ((Transcript.start.run reads).2 =
        (Transcript.start.completedBy (Transcript.inputs reads)).flatMap Transcript.lineEvents ∧
      (∀ job, s.job? b = some job →
        (s.readAll lane b reads).1.job? b = some (job.told (Transcript.start.run reads).2)) ∧
      (s.readAll lane b reads).1.notices = s.notices ++
        ((Transcript.start.completedBy (Transcript.inputs reads)).flatMap Transcript.shown).map fun text =>
          .published lane.number (.progress (idText b) text)) ∧
    ∀ line d, .diagnostic d ∈ Transcript.lineEvents line →
      ((Transcript.lineEvents line).countP fun e => e.level?.isSome) = 1 ∧
      (Transcript.shown line = [d.text] ↔ ¬ Transcript.IsUnrendered line) ∧
      (Transcript.IsUnrendered line → Transcript.shown line = []) := by
  have hevents : (Transcript.start.run reads).2 =
      (Transcript.start.completedBy (Transcript.inputs reads)).flatMap Transcript.lineEvents := by
    rw [← Transcript.feedAll_inputs, Transcript.feedAll_snd]
  refine ⟨⟨hevents, fun job hjob => ?_, ?_⟩, fun line d hd => ⟨?_, ?_⟩⟩
  · rw [Site.readAll_eq]
    exact Site.job?_reportAll hjob lane _
  · rw [Site.readAll_eq, Site.notices_reportAll, hevents, List.flatMap_assoc]
    rfl
  · have hmost : ((Transcript.lineEvents line).countP fun e => e.level?.isSome) ≤ 1 :=
      Transcript.countP_readLine .start line
    have hsome : 0 < (Transcript.lineEvents line).countP fun e => e.level?.isSome :=
      List.countP_pos_iff.2 ⟨_, hd, rfl⟩
    omega
  · obtain ⟨hshown, hnothing⟩ := Transcript.shown_of_diagnostic hd
    refine ⟨⟨fun h hun => ?_, hshown⟩, hnothing⟩
    rw [hnothing hun] at h
    cases h

/-! An error whose record renders nothing, and a warning in plain text: both are counted, and one is shown. -/

def mismatch : Output.Report := ⟨"mismatch", "error", none, none, []⟩

def mismatchLine : String :=
  "\x7b\"reason\":\"compiler-message\",\"package_id\":\"app\",\"message\":\x7b\"message\":\"mismatch\"," ++
    "\"level\":\"error\"\x7d\x7d"

def mismatchAndWarning : List (Stream × List UInt8) :=
  [(.stdout, (mismatchLine ++ "\n").toUTF8.toList), (.stderr, "warning: unused\n".toUTF8.toList)]

theorem diagnostics_shown_iff_unrendered :
    let s := (freshSite.readAll ⟨1, "/ws", 100⟩ 1 mismatchAndWarning).1
    Output.Message.parse? mismatchLine = some (.compiler "app" mismatch) ∧
      (s.job? 1).map (fun job => (job.errors, job.warnings)) = some (1, 1) ∧
      Transcript.shown mismatchLine = [] ∧ Transcript.shown "warning: unused" = ["warning: unused"] ∧
      s.notices = [.published 1 (.progress "build-1" "warning: unused")] := by
  obtain ⟨⟨hrun, hcounted, htold⟩, hshown⟩ := diagnostics_shown_iff freshSite ⟨1, "/ws", 100⟩ 1 mismatchAndWarning
  have hlines : Transcript.start.completedBy (Transcript.inputs mismatchAndWarning) =
      [mismatchLine, "warning: unused"] := by decide +kernel
  have hparse : Output.Message.parse? mismatchLine = some (.compiler "app" mismatch) := by decide
  have hvisible : Output.visible mismatchLine = mismatchLine ∧
      Output.Message.parse? (Output.visible "warning: unused") = none := by decide
  have herror : Transcript.lineEvents mismatchLine =
      [.diagnostic ⟨.error, "mismatch", none, some "app", none, none⟩] := by decide
  have hwarning : Transcript.lineEvents "warning: unused" =
      [.output "warning: unused", .diagnostic ⟨.warning, "unused", none, none, none, none⟩] := by decide
  obtain ⟨-, -, hnothing⟩ := hshown mismatchLine _ (herror ▸ List.mem_singleton.2 rfl)
  have hfirst : Transcript.shown mismatchLine = [] :=
    hnothing ⟨"app", mismatch, hvisible.1.symm ▸ hparse, rfl⟩
  obtain ⟨-, htext, -⟩ := hshown "warning: unused" ⟨.warning, "unused", none, none, none, none⟩ (by simp [hwarning])
  have hsecond : Transcript.shown "warning: unused" = ["warning: unused"] := by
    refine htext.2 ?_
    rintro ⟨packageId, report, hcompiler, -⟩
    cases hvisible.2.symm.trans hcompiler
  refine ⟨hparse, ?_, hfirst, hsecond, ?_⟩
  · rw [hcounted _ rfl, hrun, hlines, List.flatMap_cons, List.flatMap_singleton, herror, hwarning]
    decide
  · rw [htold, hlines, List.flatMap_cons, List.flatMap_singleton, hfirst, hsecond]
    decide

end Build

end CrateYard
