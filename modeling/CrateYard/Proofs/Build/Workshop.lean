import CrateYard.Proofs.Build.Told
import CrateYard.Proofs.Output.Artifacts
import Mathlib.Logic.Function.Basic
import Mathlib.Logic.Relation

/-! Builds that are run, any number of them at a time. A run starts its build; once the start is answered with yes it
spawns a process, reads what it prints, kills it if it sees that the build is canceled, waits for its end and finishes
the build. Each step is what one run does between two waits, or something that happens around the runs: a build more,
a cancellation, a turn in a line. Which step comes next is free. -/

namespace CrateYard.Build

open Output (Stream Transcript)

/-- What a run is given: who runs the build, the name of the program, and what its process will do unless it is
killed. -/
structure Errand where
  lane : Lane
  program : String
  process : Except SpawnError Trace

inductive Stage where
  | fresh
  /-- The build is to start. -/
  | asked
  /-- Its process prints, and these chunks are still to come. -/
  | reading (t : Transcript) (rest : List (Stream × List UInt8))
  /-- Nothing more is read, and the process has not been waited for. -/
  | drained (t : Transcript) (killed : Bool)
  | ending (succeeded : Bool)
  | answered (answer : Except WrittenTwice Result)

/-- A ledger, and how far the runs are. -/
structure Workshop where
  ledger : Ledger
  stage : Nat → Stage

/-- The token of a build is canceled by whoever has it, and nobody else is told. -/
def Site.signal (s : Site) (b : Nat) : Site :=
  s.update b fun x => { x with isCanceled := true }

/-- A move that no run makes: these happen to the builds. -/
def Move.isAround : Move → Bool
  | .create .. | .expire _ | .take _ | .giveBack _ | .cancel .. | .cancelToken _ | .awaitResult _ | .serveReaders _
  | .wait _ => true
  | .start .. | .finish .. | .progress .. | .addErrors .. | .addWarnings .. | .store .. => false

namespace Workshop

def start : Workshop := ⟨.start, fun _ => .fresh⟩

def site (w : Workshop) : Site :=
  w.ledger.site

def turn (w : Workshop) (b : Nat) (l : Ledger) (stage : Stage) : Workshop :=
  ⟨l, Function.update w.stage b stage⟩

/-- The run of one build goes on, and asks nothing of the ledger. -/
abbrev work (w : Workshop) (b : Nat) (s : Site) (stage : Stage) : Workshop :=
  w.turn b ⟨s, w.ledger.starts, w.ledger.ends⟩ stage

@[simp]
theorem stage_turn_self (w : Workshop) (b : Nat) (l : Ledger) (stage : Stage) : (w.turn b l stage).stage b = stage :=
  Function.update_self ..

theorem stage_turn_ne (w : Workshop) {b n : Nat} (h : n ≠ b) (l : Ledger) (stage : Stage) :
    (w.turn b l stage).stage n = w.stage n :=
  Function.update_of_ne h ..

@[simp]
theorem turn_turn (w : Workshop) (b : Nat) (l l' : Ledger) (stage stage' : Stage) :
    (w.turn b l stage).turn b l' stage' = w.turn b l' stage' := by
  simp [turn]

theorem work_eq_self (w : Workshop) {b : Nat} {stage : Stage} (h : w.stage b = stage) : w.work b w.site stage = w := by
  subst h
  simp [turn, site]

end Workshop

/-- One step of one run, or around the runs. -/
inductive Step (errands : Nat → Errand) (w : Workshop) : Workshop → Prop where
  | around {m : Move} : m.isAround = true → Step errands w { w with ledger := w.ledger.after m }
  | signal (b : Nat) : Step errands w (w.work b (w.site.signal b) (w.stage b))
  | ask {b : Nat} : w.stage b = .fresh → (w.site.job? b).isSome →
      Step errands w (w.turn b (w.ledger.after (.start (errands b).lane b)) .asked)
  /-- The build is not to run: its result is there, and is handed out. -/
  | leave {b : Nat} {result : Result} : w.stage b = .asked → w.ledger.Returned b false →
      w.site.result? b = some result → Step errands w (w.turn b w.ledger (.answered (.ok result)))
  | fail {b : Nat} {e : SpawnError} : w.stage b = .asked → w.ledger.Returned b true → (errands b).process = .error e →
      Step errands w (w.turn b
        (w.ledger.after (.progress (errands b).lane b (failure (errands b).program e.message))) (.ending false))
  | spawn {b : Nat} {trace : Trace} : w.stage b = .asked → w.ledger.Returned b true →
      (errands b).process = .ok trace → Step errands w (w.turn b w.ledger (.reading .start trace.reads))
  | read {b : Nat} {t : Transcript} {read : Stream × List UInt8} {rest : List (Stream × List UInt8)} :
      w.stage b = .reading t (read :: rest) →
      Step errands w (w.work b (w.site.readChunk (errands b).lane b t read).1
        (.reading (w.site.readChunk (errands b).lane b t read).2 rest))
  /-- Both pipes are closed, or the run sees that its build is canceled, kills the process and reads no more. -/
  | stop {b : Nat} {t : Transcript} {rest : List (Stream × List UInt8)} (killed : Bool) :
      w.stage b = .reading t rest → (if killed then w.site.IsCanceled b else rest = []) →
      Step errands w (w.work b (w.site.reportAll (errands b).lane b t.close.2) (.drained t.close.1 killed))
  /-- The process has ended, a killed one somehow. -/
  | reap {b : Nat} {t : Transcript} {killed : Bool} {trace : Trace} (exit : Exit) : w.stage b = .drained t killed →
      (errands b).process = .ok trace → (killed = false → trace.exit = .exited exit) →
      Step errands w (w.work b (w.site.complete b t exit).1 (.ending (w.site.complete b t exit).2))
  /-- The process cannot be waited for, and what it printed does not count. -/
  | lose {b : Nat} {t : Transcript} {killed : Bool} {trace : Trace} (message : String) : w.stage b = .drained t killed →
      (errands b).process = .ok trace → (killed = false → trace.exit = .lost message) →
      Step errands w (w.turn b
        (w.ledger.after (.progress (errands b).lane b (failure (errands b).program message))) (.ending false))
  | finish {b : Nat} {succeeded : Bool} : w.stage b = .ending succeeded →
      Step errands w (w.turn b (w.ledger.after (.finish (errands b).lane b succeeded))
        (.answered (w.site.finish (errands b).lane b succeeded).2))

def Steps (errands : Nat → Errand) : Workshop → Workshop → Prop :=
  Relation.ReflTransGen (Step errands)

namespace Steps

open Workshop

variable {errands : Nat → Errand} {w w' w'' : Workshop} {b : Nat}

theorem refl (w : Workshop) : Steps errands w w :=
  Relation.ReflTransGen.refl

theorem snoc (h : Steps errands w w') (h' : Step errands w' w'') : Steps errands w w'' :=
  Relation.ReflTransGen.tail h h'

theorem trans (h : Steps errands w w') (h' : Steps errands w' w'') : Steps errands w w'' :=
  Relation.ReflTransGen.trans h h'

theorem readChunks {t : Transcript} {reads : List (Stream × List UInt8)} (h : w.stage b = .reading t reads) :
    Steps errands w (w.work b
      (reads.foldl (fun (s, t) read => s.readChunk (errands b).lane b t read) (w.site, t)).1
      (.reading (reads.foldl (fun (s, t) read => s.readChunk (errands b).lane b t read) (w.site, t)).2 [])) := by
  induction reads generalizing w t with
  | nil => exact (w.work_eq_self h).symm ▸ refl w
  | cons read rest ih =>
    set next := w.work b (w.site.readChunk (errands b).lane b t read).1
      (.reading (w.site.readChunk (errands b).lane b t read).2 rest)
    have hone : Steps errands w next := (refl w).snoc (.read h)
    have hrest := ih (w := next) (stage_turn_self w b _ _)
    rw [work, turn_turn] at hrest
    exact hone.trans hrest

/-- A started build that nobody disturbs does what `conduct` does in one go. -/
theorem conduct (h : w.stage b = .asked) (hyes : w.ledger.Returned b true) :
    Steps errands w (w.turn b
      ⟨(w.site.conduct (errands b).lane b (errands b).program (errands b).process).1, w.ledger.starts,
        b :: w.ledger.ends⟩
      (.answered (w.site.conduct (errands b).lane b (errands b).program (errands b).process).2)) := by
  cases hp : (errands b).process with
  | error e =>
    have hfail := (Steps.refl w).snoc (.fail h hyes hp)
    have hend := hfail.snoc (.finish (w.stage_turn_self b _ _))
    rw [turn_turn] at hend
    exact hend
  | ok trace =>
    have hspawn := (Steps.refl w).snoc (.spawn h hyes hp)
    have hread := hspawn.trans (readChunks (w.stage_turn_self b _ _))
    rw [work, turn_turn] at hread
    have hstop := hread.snoc (.stop false (w.stage_turn_self b _ _) rfl)
    rw [work, turn_turn] at hstop
    rw [Site.conduct]
    cases hexit : trace.exit with
    | exited exit =>
      have hreap := hstop.snoc (.reap exit (w.stage_turn_self b _ _) hp fun _ => hexit)
      rw [work, turn_turn] at hreap
      have hend := hreap.snoc (.finish (w.stage_turn_self b _ _))
      rw [turn_turn] at hend
      exact hend
    | lost message =>
      have hlose := hstop.snoc (.lose message (w.stage_turn_self b _ _) hp fun _ => hexit)
      rw [turn_turn] at hlose
      have hend := hlose.snoc (.finish (w.stage_turn_self b _ _))
      rw [turn_turn] at hend
      exact hend

end Steps

/-! One build, whose lock is free, and whose process exits with success. -/

def soleErrand (reads : List (Stream × List UInt8)) : Errand := ⟨soleLane, "cargo", .ok ⟨reads, .exited (.code 0)⟩⟩

def soleCreate : Move := .create (.new ⟨"/ws/Cargo.toml"⟩) "build" false none

def soleAsked : Workshop :=
  (Workshop.mk (Ledger.start.after soleCreate) fun _ => .fresh).turn 1
    (Ledger.start.afterAll [soleCreate, .start soleLane 1]) .asked

def soleConduct (reads : List (Stream × List UInt8)) : Site × Except WrittenTwice Result :=
  soleAsked.site.conduct soleLane 1 "cargo" (soleErrand reads).process

/-- What the run of the build comes to if nobody disturbs it. -/
def soleAnswered (reads : List (Stream × List UInt8)) : Workshop :=
  soleAsked.turn 1 ⟨(soleConduct reads).1, soleAsked.ledger.starts, 1 :: soleAsked.ledger.ends⟩
    (.answered (soleConduct reads).2)

theorem steps_soleAnswered (reads : List (Stream × List UInt8)) :
    Steps (fun _ => soleErrand reads) .start (soleAnswered reads) := by
  have hstart : Steps (fun _ => soleErrand reads) .start .start := Steps.refl _
  have hcreate := hstart.snoc (.around (m := soleCreate) rfl)
  have hasked : Steps (fun _ => soleErrand reads) .start soleAsked := hcreate.snoc (.ask (b := 1) rfl (by decide))
  exact hasked.trans (Steps.conduct (Workshop.stage_turn_self ..) (by decide))

end CrateYard.Build
