import CrateYard.Proofs.Build.View

/-! Everything that can happen to builds, in any order. A move is the code between two waits of one caller: a
request, a look, a cancellation, the end of a build. Which move comes next is free, but for what a caller promises: a
build is finished once at most, and only after its own start has been answered with yes. A build may be asked to start
any number of times, but only the first request can start it. The end of a poll interval is not tied to the clock, so
the courses include all that a clock allows. -/

namespace CrateYard.Build

open Output (Artifact)

/-- The waiter to whom a lock was handed as its interval ended gives it back and looks again. -/
def Site.giveBack (s : Site) (host : String) : Site :=
  match (s.lock host).handed with
  | none => s
  | some ticket =>
    let s := s.setLock host ({ s.lock host with handed := none } : Lock).release
    match s.job? ticket.build with
    | some job => s.look ticket.lane job ticket.request
    | none => s

inductive Move where
  | create (project : Project) (task : String) (isTest : Bool) (parent : Option Nat)
  | start (lane : Lane) (build : Nat)
  | expire (ticket : Ticket)
  | take (host : String)
  | giveBack (host : String)
  | cancel (lane : Lane) (build : Nat)
  | cancelToken (token : Nat)
  | finish (lane : Lane) (build : Nat) (succeeded : Bool)
  | progress (lane : Lane) (build : Nat) (message : String)
  | addErrors (build n : Nat)
  | addWarnings (build n : Nat)
  | store (build : Nat) (artifacts : List Artifact)
  | awaitResult (build : Nat)
  | serveReaders (build : Nat)
  | wait (ms : Nat)

def Site.after (s : Site) : Move → Site
  | .create project task isTest parent => (s.newJob project task isTest parent).1
  | .start lane build => (s.request lane build).1
  | .expire ticket => s.expire ticket
  | .take host => s.take host
  | .giveBack host => s.giveBack host
  | .cancel lane build => s.cancel lane build
  | .cancelToken token => s.cancelToken token
  | .finish lane build succeeded => (s.finish lane build succeeded).1
  | .progress lane build message => s.progress lane build message
  | .addErrors build n => s.addErrors build n
  | .addWarnings build n => s.addWarnings build n
  | .store build artifacts => s.update build fun x => { x with artifacts := artifacts }
  | .awaitResult build => s.awaitResult build
  | .serveReaders build => s.serveReaders build
  | .wait ms => { s with now := s.now + ms }

/-- A site, and what callers have asked of it. -/
structure Ledger where
  site : Site
  /-- The builds that were to start, each with its first request. -/
  starts : List (Nat × Nat)
  /-- The builds that were finished. -/
  ends : List Nat

namespace Ledger

def start : Ledger := ⟨.start, [], []⟩

/-- The starts once a build is to start. A later request of the same build does not count. -/
def noteStart (l : Ledger) (build : Nat) : List (Nat × Nat) :=
  if l.starts.any fun p => p.1 = build then l.starts else (build, l.site.requests) :: l.starts

theorem noteStart_of_new {l : Ledger} {b : Nat} (h : ∀ r, (b, r) ∉ l.starts) :
    l.noteStart b = (b, l.site.requests) :: l.starts := by
  refine if_neg ?_
  simp only [List.any_eq_true, decide_eq_true_eq]
  rintro ⟨⟨_, r⟩, hr, rfl⟩
  exact h r hr

theorem noteStart_of_mem {l : Ledger} {b r : Nat} (h : (b, r) ∈ l.starts) : l.noteStart b = l.starts := by
  refine if_pos ?_
  simp only [List.any_eq_true, decide_eq_true_eq]
  exact ⟨(b, r), h, rfl⟩

/-- Only the first request of a build is noted. -/
theorem noteStart_cases (l : Ledger) (b : Nat) :
    (∀ r, (b, r) ∉ l.starts) ∧ l.noteStart b = (b, l.site.requests) :: l.starts ∨
      ∃ r, (b, r) ∈ l.starts ∧ l.noteStart b = l.starts := by
  by_cases h : ∃ r, (b, r) ∈ l.starts
  · obtain ⟨r, hr⟩ := h
    exact .inr ⟨r, hr, noteStart_of_mem hr⟩
  · rw [not_exists] at h
    exact .inl ⟨h, noteStart_of_new h⟩

theorem subset_noteStart (l : Ledger) (b : Nat) : l.starts ⊆ l.noteStart b := by
  rcases l.noteStart_cases b with ⟨-, he⟩ | ⟨_, -, he⟩ <;> rw [he]
  · exact List.subset_cons_self _ _
  · exact List.Subset.refl _

/-- The first request of a build to start was answered. -/
def Returned (l : Ledger) (build : Nat) (started : Bool) : Prop :=
  ∃ request, (build, request) ∈ l.starts ∧ .answered request started ∈ l.site.notices

/-- What callers promise. -/
def Allows (l : Ledger) : Move → Prop
  | .start _ build => (l.site.job? build).isSome
  | .finish _ build _ => l.Returned build true ∧ build ∉ l.ends
  | _ => True

def after (l : Ledger) (m : Move) : Ledger :=
  { site := l.site.after m
    starts := match m with
      | .start _ build => l.noteStart build
      | _ => l.starts
    ends := match m with
      | .finish _ build _ => build :: l.ends
      | _ => l.ends }

instance (l : Ledger) (build : Nat) (started : Bool) : Decidable (l.Returned build started) :=
  decidable_of_iff (∃ p ∈ l.starts, p.1 = build ∧ .answered p.2 started ∈ l.site.notices) <| by
    constructor
    · rintro ⟨⟨_, r⟩, hp, rfl, ha⟩
      exact ⟨r, hp, ha⟩
    · rintro ⟨r, hp, ha⟩
      exact ⟨(build, r), hp, rfl, ha⟩

instance (l : Ledger) (m : Move) : Decidable (l.Allows m) :=
  match m with
  | .start _ build => inferInstanceAs (Decidable ((l.site.job? build).isSome = true))
  | .finish _ build _ => inferInstanceAs (Decidable (l.Returned build true ∧ build ∉ l.ends))
  | .create .. | .expire _ | .take _ | .giveBack _ | .cancel .. | .cancelToken _ | .progress .. | .addErrors ..
  | .addWarnings .. | .store .. | .awaitResult _ | .serveReaders _ | .wait _ => isTrue trivial

def afterAll (l : Ledger) (moves : List Move) : Ledger :=
  moves.foldl after l

def AllowsAll (l : Ledger) : List Move → Prop
  | [] => True
  | m :: rest => l.Allows m ∧ (l.after m).AllowsAll rest

instance decidableAllowsAll (l : Ledger) (moves : List Move) : Decidable (l.AllowsAll moves) :=
  match moves with
  | [] => isTrue trivial
  | m :: rest =>
    have := decidableAllowsAll (l.after m) rest
    inferInstanceAs (Decidable (l.Allows m ∧ (l.after m).AllowsAll rest))

end Ledger

/-- A ledger is reached from another by moves that callers may make. -/
inductive Course (l : Ledger) : List Move → Ledger → Prop where
  | nil : Course l [] l
  | snoc {moves : List Move} {l' : Ledger} {m : Move} :
      Course l moves l' → l'.Allows m → Course l (moves ++ [m]) (l'.after m)

namespace Course

variable {l l' : Ledger} {moves : List Move}

theorem eq_afterAll (h : Course l moves l') : l' = l.afterAll moves := by
  induction h with
  | nil => rfl
  | snoc _ _ ih => rw [ih, Ledger.afterAll, Ledger.afterAll, List.foldl_append, List.foldl_cons, List.foldl_nil]

theorem cons {m : Move} (hm : l.Allows m) (h : Course (l.after m) moves l') : Course l (m :: moves) l' := by
  induction h with
  | nil => exact .snoc .nil hm
  | snoc _ hm' ih => exact .snoc ih hm'

theorem of_allowsAll (h : l.AllowsAll moves) : Course l moves (l.afterAll moves) := by
  induction moves generalizing l with
  | nil => exact .nil
  | cons m rest ih => exact cons h.1 (ih h.2)

end Course

/-! Two builds of one host, of which the second has to wait. -/

def soleLane : Lane := ⟨1, "/ws", 100⟩

def contention : List Move :=
  [.create (.new ⟨"/ws/Cargo.toml"⟩) "build" false none, .create (.new ⟨"/ws/Cargo.toml"⟩) "test" false none,
    .start soleLane 1, .start soleLane 2]

/-- The place in line of the second build. -/
def secondTicket : Ticket := ⟨0, 2, 1, soleLane, 100⟩

example : ((Ledger.start.afterAll contention).site.lock "/ws").queue = [secondTicket] := by decide

end CrateYard.Build
