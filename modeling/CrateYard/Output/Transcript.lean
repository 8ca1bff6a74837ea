import CrateYard.Output.Diagnostic
import CrateYard.Output.LineReader
import CrateYard.Output.Message
import CrateYard.Text.Escape

/-! The output of a build as events. Each stream has its own line reader; a line is read without regard to the
lines before it, and adds to the counters and the artifacts. -/

namespace CrateYard.Output

/-- The pipe that a chunk came from. -/
inductive Stream where
  | stdout
  | stderr
deriving DecidableEq, Repr

def plainText (text : String) : String :=
  String.ofList (Text.stripSequences text.toList)

namespace Report

def location? (r : Report) : Option Location :=
  (r.spans.find? (·.isPrimary)).map fun s => ⟨⟨s.file⟩, s.line, s.column⟩

/-- A report of a counted level that is no summary is a diagnostic; of any other report there is what it would
print. -/
def diagnostic (packageId : String) (r : Report) : Except (Option String) Diagnostic :=
  let rendered := r.rendered.map plainText
  match Level.ofName? r.level with
  | none => .error rendered
  | some level =>
    if isSummary (r.level ++ ": " ++ r.message).toList then .error rendered
    else
      .ok
        { level := level
          message := r.message
          code := r.code
          packageId := some packageId
          location := r.location?
          rendered := rendered }

end Report

def Built.toArtifact (b : Built) : Artifact :=
  ⟨⟨b.packageId, b.name, b.kind⟩, b.filenames, b.executable, b.fresh⟩

structure Transcript where
  stdout : LineReader
  stderr : LineReader
  counts : Counts
  artifacts : Artifacts
deriving Inhabited

namespace Transcript

def start : Transcript := ⟨.empty, .empty, .zero, .empty⟩

def count (t : Transcript) (d : Diagnostic) : Transcript :=
  { t with counts := t.counts.add d.level }

/-- An artifact takes the place of an earlier one of the same target. -/
def keep (t : Transcript) (a : Artifact) : Transcript :=
  { t with artifacts := t.artifacts.set a.target a }

def readMessage (t : Transcript) : Message → Transcript × List Event
  | .compiler packageId report =>
    match report.diagnostic packageId with
    | .ok d => (t.count d, [.diagnostic d])
    | .error shown => (t, (shown.map Event.output).toList)
  | .artifact built => (t.keep built.toArtifact, [.artifact built.toArtifact])
  | .scriptExecuted packageId => (t, [.scriptExecuted packageId])
  | .finished success => (t, [.finished success])

/-- A line that is no record: it is shown, and a diagnostic in it is counted. -/
def readText (t : Transcript) (line : List Char) : Transcript × List Event :=
  let text := Text.stripSequences line
  if isProgressBar text then (t, [])
  else match plainDiagnostic? text with
    | some d => (t.count d, [.output (String.ofList text), .diagnostic d])
    | none => (t, [.output (String.ofList text)])

/-- One line: what a redrawn line leaves visible is nothing, a record or text. -/
def readLine (t : Transcript) (line : String) : Transcript × List Event :=
  let visible := Text.afterErase line.toList
  if (Text.trim visible).isEmpty then (t, [])
  else match Message.parse? (String.ofList visible) with
    | some message => t.readMessage message
    | none => t.readText visible

/-- Lines that are complete. -/
def readLines (t : Transcript) : List String → Transcript × List Event
  | [] => (t, [])
  | line :: rest =>
    let (t, events) := t.readLine line
    let (t, more) := t.readLines rest
    (t, events ++ more)

def readChunk (t : Transcript) (stream : Stream) (chunk : List UInt8) : Transcript × List Event :=
  match stream with
  | .stdout =>
    let (reader, lines) := t.stdout.read chunk
    { t with stdout := reader }.readLines lines
  | .stderr =>
    let (reader, lines) := t.stderr.read chunk
    { t with stderr := reader }.readLines lines

/-- Both streams have ended: what they hold is a last line each. -/
def close (t : Transcript) : Transcript × List Event :=
  let (out, outLine) := t.stdout.finish
  let (err, errLine) := t.stderr.finish
  { t with stdout := out, stderr := err }.readLines (outLine.toList ++ errLine.toList)

/-- The artifacts to hand out: those of a build that failed may be stale. -/
def result (t : Transcript) (succeeded : Bool) : Artifacts :=
  if succeeded then t.artifacts else .empty

end Transcript
end CrateYard.Output
