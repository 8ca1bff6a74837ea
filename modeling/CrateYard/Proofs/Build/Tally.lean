import CrateYard.Proofs.Build.View
import CrateYard.Proofs.Output.Artifacts
import Mathlib.Algebra.Group.Nat.Defs

/-! What is counted of the output of a build. A transcript counts and keeps what it tells: its counters are the numbers
of the diagnostics among its events, its artifacts are the last ones that its events report, and a build that is told
the events has counted the same. -/

namespace CrateYard

namespace Output

/-- How many of some events are diagnostics of a level. -/
def Event.countOf (l : Level) (events : List Event) : Nat :=
  events.countP fun e => e.level? = some l

theorem Event.countOf_nil (l : Level) : countOf l [] = 0 := rfl

theorem Event.countOf_cons (l : Level) (e : Event) (events : List Event) :
    countOf l (e :: events) = countOf l events + if e.level? = some l then 1 else 0 := by
  simp only [countOf, List.countP_cons, decide_eq_true_eq]

namespace Counts

def of (c : Counts) : Level → Nat
  | .error => c.errors
  | .warning => c.warnings

theorem of_add (c : Counts) (l m : Level) : (c.add m).of l = c.of l + if m = l then 1 else 0 := by
  cases l <;> cases m <;> rfl

end Counts

namespace Transcript

/-- What a transcript can be given: bytes of a stream, a line, and the end of both streams. -/
inductive Input where
  | chunk (stream : Stream) (bytes : List UInt8)
  | line (text : String)
  | close
deriving DecidableEq, Repr

def feed (t : Transcript) : Input → Transcript × List Event
  | .chunk stream bytes => t.readChunk stream bytes
  | .line text => t.readLine text
  | .close => t.close

def feedAll (t : Transcript) : List Input → Transcript × List Event
  | [] => (t, [])
  | input :: rest =>
    let (t, events) := t.feed input
    let (t, more) := t.feedAll rest
    (t, events ++ more)

def completed (t : Transcript) : Input → List String
  | .chunk stream bytes => ((t.reader stream).read bytes).2
  | .line text => [text]
  | .close => t.stdout.finish.2.toList ++ t.stderr.finish.2.toList

def completedBy (t : Transcript) : List Input → List String
  | [] => []
  | input :: rest => t.completed input ++ (t.feed input).1.completedBy rest

/-! A line tells at most one diagnostic. -/

theorem countP_readMessage (t : Transcript) (message : Message) :
    ((t.readMessage message).2.countP fun e => e.level?.isSome) ≤ 1 := by
  cases message with
  | compiler packageId report =>
    simp only [readMessage]
    cases report.diagnostic packageId with
    | ok d => exact Nat.le_refl 1
    | error shown => cases shown <;> exact Nat.zero_le 1
  | artifact built => exact Nat.zero_le 1
  | scriptExecuted packageId => exact Nat.zero_le 1
  | finished success => exact Nat.zero_le 1

theorem countP_readText (t : Transcript) (line : List Char) :
    ((t.readText line).2.countP fun e => e.level?.isSome) ≤ 1 := by
  unfold readText
  by_cases hbar : isProgressBar (Text.stripSequences line) = true
  · simp [hbar]
  · simp only [hbar]
    cases plainDiagnostic? (Text.stripSequences line) with
    | some d => exact Nat.le_refl 1
    | none => exact Nat.zero_le 1

theorem countP_readLine (t : Transcript) (line : String) :
    ((t.readLine line).2.countP fun e => e.level?.isSome) ≤ 1 := by
  unfold readLine
  by_cases hblank : (Text.trim (Text.afterErase line.toList)).isEmpty = true
  · simp [hblank]
  · simp only [hblank]
    cases Message.parse? (String.ofList (Text.afterErase line.toList)) with
    | some message => exact countP_readMessage t message
    | none => exact countP_readText t _

/-! What a transcript holds is what its events say, but for the readers. -/

theorem feed_snd (t : Transcript) (input : Input) : (t.feed input).2 = (t.completed input).flatMap lineEvents := by
  cases input with
  | chunk stream bytes => rw [feed, readChunk_eq, completed]
  | line text => rw [feed, readLine_eq, completed, List.flatMap_singleton]
  | close => rw [feed, close_eq, completed]

theorem feedAll_snd (t : Transcript) (inputs : List Input) :
    (t.feedAll inputs).2 = (t.completedBy inputs).flatMap lineEvents := by
  induction inputs generalizing t with
  | nil => rfl
  | cons input rest ih => rw [feedAll, completedBy, List.flatMap_append, ← feed_snd, ← ih]

theorem exists_readers_feed (t : Transcript) (input : Input) :
    ∃ out err, (t.feed input).1 =
      (((t.feed input).2.foldl absorb t).setReader .stdout out).setReader .stderr err := by
  cases input with
  | chunk stream bytes =>
    rw [feed, readChunk_eq, absorbAll_setReader]
    generalize ((t.reader stream).read bytes).2.flatMap lineEvents = events
    cases stream with
    | stdout => exact ⟨_, (events.foldl absorb t).stderr, rfl⟩
    | stderr => exact ⟨(events.foldl absorb t).stdout, _, rfl⟩
  | line text =>
    rw [feed, readLine_eq]
    generalize lineEvents text = events
    exact ⟨(events.foldl absorb t).stdout, (events.foldl absorb t).stderr, rfl⟩
  | close =>
    rw [feed, close_eq, absorbAll_setReader, absorbAll_setReader]
    exact ⟨.empty, .empty, rfl⟩

theorem exists_readers_feedAll (t : Transcript) (inputs : List Input) :
    ∃ out err, (t.feedAll inputs).1 =
      (((t.feedAll inputs).2.foldl absorb t).setReader .stdout out).setReader .stderr err := by
  induction inputs generalizing t with
  | nil => exact ⟨t.stdout, t.stderr, rfl⟩
  | cons input rest ih =>
    obtain ⟨out, err, hfeed⟩ := exists_readers_feed t input
    obtain ⟨out', err', hrest⟩ := ih (t.feed input).1
    refine ⟨out', err', ?_⟩
    simp only [feedAll]
    rw [hrest, List.foldl_append]
    generalize ((t.feed input).1.feedAll rest).2 = more
    rw [hfeed, absorbAll_setReader, absorbAll_setReader]
    rfl

theorem counts_feedAll (t : Transcript) (inputs : List Input) :
    (t.feedAll inputs).1.counts = ((t.feedAll inputs).2.foldl absorb t).counts := by
  obtain ⟨out, err, h⟩ := exists_readers_feedAll t inputs
  rw [h]
  rfl

theorem artifacts_feedAll (t : Transcript) (inputs : List Input) :
    (t.feedAll inputs).1.artifacts = ((t.feedAll inputs).2.foldl absorb t).artifacts := by
  obtain ⟨out, err, h⟩ := exists_readers_feedAll t inputs
  rw [h]
  rfl

theorem of_counts_absorb (t : Transcript) (e : Event) (l : Level) :
    (t.absorb e).counts.of l = t.counts.of l + if e.level? = some l then 1 else 0 := by
  cases e with
  | diagnostic d => simpa [absorb, count, Event.level?] using Counts.of_add t.counts l d.level
  | _ => rfl

theorem of_counts_absorbAll (t : Transcript) (events : List Event) (l : Level) :
    (events.foldl absorb t).counts.of l = t.counts.of l + Event.countOf l events := by
  induction events generalizing t with
  | nil => rfl
  | cons e rest ih =>
    rw [List.foldl_cons, ih, of_counts_absorb, Event.countOf_cons]
    omega

theorem mem_keys_absorbAll (t : Transcript) (events : List Event) (k : TargetRef) :
    k ∈ (events.foldl absorb t).artifacts.keys ↔
      k ∈ t.artifacts.keys ∨ ∃ a, .artifact a ∈ events ∧ a.target = k := by
  induction events generalizing t with
  | nil => simp
  | cons e rest ih =>
    rw [List.foldl_cons, ih]
    cases e with
    | artifact a =>
      have hkeys : k ∈ (t.absorb (.artifact a)).artifacts.keys ↔ k ∈ t.artifacts.keys ∨ a.target = k := by
        rw [absorb, keep, Table.keys_set]
        split
        · next ha => exact ⟨.inl, fun h => h.elim id fun he => he ▸ ha⟩
        · simp [eq_comm]
      rw [hkeys]
      simp [or_assoc, or_and_right, exists_or]
    | diagnostic d => simp [absorb, count]
    | _ => simp [absorb]

end Transcript

end Output

namespace Build

open Output (Event Transcript Counts)

/-- A build that has counted the diagnostics among some events. -/
def Job.told (job : Job) (events : List Event) : Job :=
  { job with
    errors := job.errors + UInt32.ofNat (Event.countOf .error events)
    warnings := job.warnings + UInt32.ofNat (Event.countOf .warning events) }

theorem Job.told_nil (job : Job) : job.told [] = job := by
  simp [told, Event.countOf]

theorem Job.told_cons (job : Job) (e : Event) (events : List Event) :
    job.told (e :: events) = (job.told [e]).told events := by
  have hcount : ∀ l, UInt32.ofNat (Event.countOf l (e :: events)) =
      UInt32.ofNat (Event.countOf l [e]) + UInt32.ofNat (Event.countOf l events) := fun l => by
    rw [← UInt32.ofNat_add, Event.countOf_cons, Event.countOf_cons, Event.countOf_nil, Nat.zero_add, Nat.add_comm]
  simp only [told, hcount, UInt32.add_assoc]

theorem Job.told_of_level?_eq_none (job : Job) {e : Event} (h : e.level? = none) : job.told [e] = job := by
  simp [told, Event.countOf, h]

namespace Site

section

variable {s : Site} {b : Nat} {job : Job} (h : s.job? b = some job)
include h

theorem job?_addErrors (n : Nat) :
    (s.addErrors b n).job? b = some { job with errors := job.errors + UInt32.ofNat n } :=
  job?_update_self (f := fun x => { x with errors := x.errors + UInt32.ofNat n }) (fun _ => rfl) s b h

theorem job?_addWarnings (n : Nat) :
    (s.addWarnings b n).job? b = some { job with warnings := job.warnings + UInt32.ofNat n } :=
  job?_update_self (f := fun x => { x with warnings := x.warnings + UInt32.ofNat n }) (fun _ => rfl) s b h

theorem job?_report (lane : Lane) (e : Event) :
    (s.report lane b e).job? b = some (job.told [e]) := by
  cases e with
  | diagnostic d =>
    have hcounted : (match d.level with
        | .error => s.addErrors b 1
        | .warning => s.addWarnings b 1).job? b = some (job.told [.diagnostic d]) := by
      cases hl : d.level with
      | error => rw [job?_addErrors h]; simp [Job.told, Event.countOf, Event.level?, hl]
      | warning => rw [job?_addWarnings h]; simp [Job.told, Event.countOf, Event.level?, hl]
    simp only [report]
    cases d.rendered with
    | some rendered => exact hcounted
    | none => exact hcounted
  | output text => rw [Job.told_of_level?_eq_none job rfl]; exact h
  | artifact a => rw [Job.told_of_level?_eq_none job rfl]; exact h
  | scriptExecuted id => rw [Job.told_of_level?_eq_none job rfl]; exact h
  | finished success => rw [Job.told_of_level?_eq_none job rfl]; exact h

/-- A build that is told events has counted their diagnostics, and is as it was otherwise. -/
theorem job?_reportAll (lane : Lane) (events : List Event) :
    (s.reportAll lane b events).job? b = some (job.told events) := by
  induction events generalizing s job with
  | nil => rw [reportAll, List.foldl_nil, h, Job.told_nil]
  | cons e rest ih => rw [Job.told_cons, ← ih (job?_report h lane e), reportAll, reportAll, List.foldl_cons]

end

end Site

/-- Whatever a new transcript is given, its events are those of the lines completed, each with at most one diagnostic;
its counters are the numbers of the diagnostics among all events, it keeps one artifact for each target that an event
reports, the last one, and a build that is told the events counts what the transcript counts. -/
theorem tally_of_feedAll {inputs : List Transcript.Input} {t : Transcript} {events : List Event}
    (h : Transcript.start.feedAll inputs = (t, events)) :
    (events = (Transcript.start.completedBy inputs).flatMap Transcript.lineEvents ∧
      ∀ (u : Transcript) line, (u.readLine line).2 = Transcript.lineEvents line ∧
        ((u.readLine line).2.countP fun e => e.level?.isSome) ≤ 1) ∧
    (t.counts.errors = Event.countOf .error events ∧ t.counts.warnings = Event.countOf .warning events) ∧
    (t.artifacts.keys.Nodup ∧ (∀ k, k ∈ t.artifacts.keys ↔ ∃ a, .artifact a ∈ events ∧ a.target = k) ∧
      ∀ k, t.artifacts.get? k = (events.filterMap (Event.artifactOf? k)).getLast?) ∧
    ∀ (s : Site) (lane : Lane) (b : Nat) (job : Job), s.job? b = some job → job.errors = 0 → job.warnings = 0 →
      t.counts.errors < 2 ^ 32 → t.counts.warnings < 2 ^ 32 →
      ∃ job', (s.reportAll lane b events).job? b = some job' ∧ job'.errors.toNat = t.counts.errors ∧
        job'.warnings.toNat = t.counts.warnings := by
  obtain ⟨rfl, rfl⟩ := Prod.mk.inj h
  set t := (Transcript.start.feedAll inputs).1
  set events := (Transcript.start.feedAll inputs).2
  have hcounts : ∀ l, t.counts.of l = Event.countOf l events := fun l => by
    rw [Transcript.counts_feedAll, Transcript.of_counts_absorbAll]
    cases l <;> exact Nat.zero_add _
  have hartifacts : t.artifacts = (events.foldl Transcript.absorb .start).artifacts :=
    Transcript.artifacts_feedAll .start inputs
  refine ⟨⟨Transcript.feedAll_snd .start inputs, fun u line => ⟨?_, Transcript.countP_readLine u line⟩⟩,
    ⟨hcounts .error, hcounts .warning⟩, ⟨?_, fun k => ?_, fun k => ?_⟩, ?_⟩
  · rw [Transcript.readLine_eq]
  · rw [hartifacts]
    exact (Transcript.keyed_absorbAll .empty events).nodup
  · rw [hartifacts, Transcript.mem_keys_absorbAll]
    simp [Transcript.start, Table.keys, Table.empty]
  · rw [hartifacts, Transcript.get?_absorbAll]
    simp [Transcript.start, Table.get?, Table.empty]
  · intro s lane b job hj herrors hwarnings hfew hfew'
    refine ⟨_, Site.job?_reportAll hj lane events, ?_, ?_⟩
    · simp only [Job.told, herrors, UInt32.zero_add, ← hcounts, UInt32.toNat_ofNat']
      exact Nat.mod_eq_of_lt hfew
    · simp only [Job.told, hwarnings, UInt32.zero_add, ← hcounts, UInt32.toNat_ofNat']
      exact Nat.mod_eq_of_lt hfew'

/-! A record that comes in two pieces, diagnostics on a line of their own and at the end of a stream, and a summary. -/

def mixedInputs : List Transcript.Input :=
  [.chunk .stdout (Transcript.appRecord.take 9), .line "warning: unused", .chunk .stderr "error: é".toUTF8.toList,
    .chunk .stdout (Transcript.appRecord.drop 9), .line "error: could not compile `app`", .close]

def freshSite : Site := (Site.start.newJob (.new ⟨"/ws/Cargo.toml"⟩) "build" false none).1

theorem tally_of_feedAll_mixed :
    let told := Transcript.start.feedAll mixedInputs
    Event.countOf .error told.2 = 1 ∧ Event.countOf .warning told.2 = 1 ∧
      told.1.artifacts.get? Transcript.appArtifact.target = some Transcript.appArtifact ∧
      ∃ job, (freshSite.reportAll ⟨1, "/ws", 100⟩ 1 told.2).job? 1 = some job ∧ job.errors.toNat = 1 ∧
        job.warnings.toNat = 1 := by
  have hevents : (Transcript.start.feedAll mixedInputs).2 =
      [.output "warning: unused", .diagnostic ⟨.warning, "unused", none, none, none, none⟩,
        .artifact Transcript.appArtifact, .output "error: could not compile `app`", .output "error: é",
        .diagnostic ⟨.error, "é", none, none, none, none⟩] := by decide +kernel
  generalize hfeed : Transcript.start.feedAll mixedInputs = told at hevents ⊢
  obtain ⟨t, events⟩ := told
  obtain ⟨-, ⟨hcounts, hcounts'⟩, ⟨-, -, hkept⟩, hjobs⟩ := tally_of_feedAll hfeed
  dsimp only at hevents ⊢
  have herrors : Event.countOf .error events = 1 := by rw [hevents]; decide
  have hwarnings : Event.countOf .warning events = 1 := by rw [hevents]; decide
  have hlast : (events.filterMap (Event.artifactOf? Transcript.appArtifact.target)).getLast? =
      some Transcript.appArtifact := by rw [hevents]; decide
  rw [herrors] at hcounts
  rw [hwarnings] at hcounts'
  obtain ⟨job, hjob, he, hw⟩ := hjobs freshSite ⟨1, "/ws", 100⟩ 1 _ rfl rfl rfl (by rw [hcounts]; decide)
    (by rw [hcounts']; decide)
  exact ⟨herrors, hwarnings, (hkept _).trans hlast, job, hjob, he.trans hcounts, hw.trans hcounts'⟩

end Build

end CrateYard
