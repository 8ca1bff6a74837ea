import CrateYard.Build.Command
import CrateYard.Build.Site
import CrateYard.Output.Transcript

/-! Running a build: its process is started when the lock is taken, what it prints is counted and shown, and when it
has ended so has the build. -/

namespace CrateYard.Build

open Output (Event Transcript Stream Artifact)

/-- What comes of waiting for a process: it has ended, or the system cannot tell. -/
inductive Wait where
  | exited (exit : Exit)
  | lost (message : String)
deriving DecidableEq, Repr

def Wait.isSuccess : Wait → Bool
  | .exited exit => exit.isSuccess
  | .lost _ => false

/-- What is known of a process once nothing more is read from it: the chunks that were read, and its end. -/
structure Trace where
  reads : List (Stream × List UInt8)
  exit : Wait
deriving DecidableEq, Repr

def failure (program message : String) : String :=
  "failed to run " ++ program ++ ": " ++ message

namespace Site

/-- An event of a build: a diagnostic is counted, and text is shown. -/
def report (s : Site) (lane : Lane) (build : Nat) : Event → Site
  | .output text => s.progress lane build text
  | .diagnostic d =>
    let s := match d.level with
      | .error => s.addErrors build 1
      | .warning => s.addWarnings build 1
    match d.rendered with
    | some rendered => s.progress lane build (Output.plainText rendered)
    | none => s
  | _ => s

def reportAll (s : Site) (lane : Lane) (build : Nat) (events : List Event) : Site :=
  events.foldl (fun s event => s.report lane build event) s

def readChunk (s : Site) (lane : Lane) (build : Nat) (t : Transcript) (read : Stream × List UInt8) :
    Site × Transcript :=
  let (t, events) := t.readChunk read.1 read.2
  (s.reportAll lane build events, t)

def readAll (s : Site) (lane : Lane) (build : Nat) (reads : List (Stream × List UInt8)) : Site × Transcript :=
  let (s, t) := reads.foldl (fun (s, t) read => s.readChunk lane build t read) (s, Transcript.start)
  let (t, events) := t.close
  (s.reportAll lane build events, t)

/-- The process has ended: its artifacts count if it succeeded and the build is not canceled. -/
def complete (s : Site) (build : Nat) (t : Transcript) (exit : Exit) : Site × Bool :=
  let succeeded := exit.isSuccess && !(s.job? build).any s.isCanceled
  let artifacts := Artifact.listed (t.result succeeded).values
  (s.update build fun x => { x with artifacts := artifacts }, succeeded)

/-- A started build and what is known of its process, or why there is none. -/
def conduct (s : Site) (lane : Lane) (build : Nat) (program : String) :
    Except SpawnError Trace → Site × Except WrittenTwice Result
  | .error e => (s.progress lane build (failure program e.message)).finish lane build false
  | .ok trace =>
    let (s, t) := s.readAll lane build trace.reads
    match trace.exit with
    | .exited exit =>
      let (s, succeeded) := s.complete build t exit
      s.finish lane build succeeded
    | .lost message => (s.progress lane build (failure program message)).finish lane build false

end Site

inductive Cancellation where
  | never
  | before
  /-- So many milliseconds after it was started. -/
  | after (ms : Nat)
deriving DecidableEq, Repr

structure Run where
  site : Site
  build : Nat
  invocations : List Invocation

namespace Run

def result? (r : Run) : Option Result :=
  (r.site.job? r.build).bind fun job => job.outcome.cell.value

end Run

/-- What is read of a process that may be killed on the way: it writes at once, and then takes its time. -/
def Trace.ofProcess (p : Process) (killed : Bool) : Trace :=
  ⟨[(.stdout, p.stdout), (.stderr, p.stderr)], .exited (if killed then .kill else p.exit)⟩

def outerToken : Nat := 0

def run (m : Machine) (lane : Lane) (project : Project) (task : String) (isTest : Bool) (command : Command)
    (cancellation : Cancellation) : Run :=
  let (s, build) := Site.start.newJob project task isTest (some outerToken)
  let s := if cancellation = .before then s.cancelToken outerToken else s
  let (s, _) := s.request lane build
  if (s.job? build).any fun x => x.state = .running then
    match m.spawn command with
    | .error e => ⟨(s.conduct lane build command.program (.error e)).1, build, []⟩
    | .ok (invocation, process) =>
      let killed : Bool := match cancellation with
        | .after ms => ms < process.duration
        | _ => false
      let s := if killed then s.cancelToken outerToken else s
      ⟨(s.conduct lane build command.program (.ok (.ofProcess process killed))).1, build, [invocation]⟩
  else ⟨s, build, []⟩

end CrateYard.Build
