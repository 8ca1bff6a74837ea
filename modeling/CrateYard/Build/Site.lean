import CrateYard.Backlog
import CrateYard.Build.Once
import CrateYard.Build.Result
import CrateYard.Project.Basic
import CrateYard.Table

/-! Builds that share the locks of their hosts. A build asks for the lock of its host and waits in line; whoever
gives the lock up hands it to the first in line at once. A wait lasts one poll interval: then the build looks
whether it was canceled, and if not queues again at the end. Each definition that changes the site is one step:
what is done between two waits. -/

namespace CrateYard.Build

open Output (Artifact)

/-- Who runs builds for a host, and how long one of them waits before it looks for its cancellation. -/
structure Lane where
  number : Nat
  host : String
  pollMs : Nat
deriving DecidableEq, Repr

structure Ticket where
  number : Nat
  build : Nat
  /-- The request that waits. -/
  request : Nat
  lane : Lane
  deadline : Nat
deriving DecidableEq, Repr

/-- The lock of a host: free, handed to a waiter who has not taken it yet, or held by a build. -/
structure Lock where
  isFree : Bool
  handed : Option Ticket
  queue : List Ticket
deriving DecidableEq, Repr

structure Job where
  number : Nat
  project : Project
  task : String
  isTest : Bool
  parent : Option Nat
  state : State
  /-- Its own token is canceled. -/
  isCanceled : Bool
  errors : UInt32
  warnings : UInt32
  /-- Its end has been recorded. -/
  hasEnded : Bool
  /-- The host whose lock it holds. -/
  holds : Option String
  artifacts : List Artifact
  outcome : Readership Result

/-- A result was to be written a second time. -/
structure WrittenTwice where
  name : String
deriving DecidableEq, Repr

def WrittenTwice.message (e : WrittenTwice) : String :=
  e.name ++ " resolved twice"

inductive Notice where
  | published (lane : Nat) (event : Progress)
  /-- A request has been answered: the build was started, or not. -/
  | answered (request : Nat) (started : Bool)
  | refused (error : WrittenTwice)
deriving DecidableEq, Repr

structure Site where
  now : Nat
  jobs : List Job
  locks : Table String Lock
  canceled : List Nat
  tickets : Nat
  requests : Nat
  notices : List Notice

namespace Lock

def fresh : Lock := ⟨true, none, []⟩

/-- The lock is given up: it goes to the first in line. -/
def release (l : Lock) : Lock :=
  match l.queue with
  | [] => { l with isFree := true }
  | ticket :: rest => { l with handed := some ticket, queue := rest }

def leave (l : Lock) (ticket : Nat) : Lock :=
  { l with queue := l.queue.filter fun t => t.number ≠ ticket }

end Lock

namespace Job

def name (job : Job) : String :=
  idText job.number

def isHolding (job : Job) : Bool :=
  job.holds.isSome

def startMessage (job : Job) : String :=
  "Running cargo " ++ job.task ++ " for " ++ job.project.displayName

def result (job : Job) (succeeded canceled : Bool) (message : String) : Result :=
  { id := job.name
    succeeded := succeeded && !canceled
    canceled := canceled
    errors := job.errors
    warnings := job.warnings
    message := message
    artifacts := if succeeded && !canceled then job.artifacts else [] }

end Job

namespace Site

def start : Site := ⟨0, [], .empty, [], 0, 0, []⟩

def job? (s : Site) (build : Nat) : Option Job :=
  s.jobs.find? fun job => job.number = build

def update (s : Site) (build : Nat) (f : Job → Job) : Site :=
  { s with jobs := s.jobs.map fun job => if job.number = build then f job else job }

def lock (s : Site) (host : String) : Lock :=
  (s.locks.get? host).getD .fresh

def setLock (s : Site) (host : String) (l : Lock) : Site :=
  { s with locks := s.locks.set host l }

def notify (s : Site) (notices : List Notice) : Site :=
  { s with notices := s.notices ++ notices }

def publish (s : Site) (lane : Lane) (events : List Progress) : Site :=
  s.notify (events.map (.published lane.number))

/-- How many events of a lane are kept for a follower who reads late. -/
def backlog : Nat := 256

/-- What a follower of a lane can still read of the notices since the last look. -/
def unread (s : Site) (lane : Nat) : List Progress :=
  Backlog.keep backlog (s.notices.filterMap fun
    | .published l event => if l = lane then some event else none
    | .answered _ _ | .refused _ => none)

/-- A build is canceled when its own token or its parent is. -/
def isCanceled (s : Site) (job : Job) : Bool :=
  job.isCanceled || job.parent.any s.canceled.contains

def newJob (s : Site) (project : Project) (task : String) (isTest : Bool) (parent : Option Nat) : Site × Nat :=
  let number := s.jobs.length + 1
  let job : Job :=
    { number := number
      project := project
      task := task
      isTest := isTest
      parent := parent
      state := .idle
      isCanceled := false
      errors := 0
      warnings := 0
      hasEnded := false
      holds := none
      artifacts := []
      outcome := .empty }
  ({ s with jobs := s.jobs ++ [job] }, number)

/-- A build has come to its end: its state is set and its result is written and announced. If there is a result
already, the state is set all the same, the log says so and nothing is announced. -/
def conclude (s : Site) (lane : Lane) (job : Job) (v : Verdict) (result : Result) :
    Site × Except WrittenTwice Result :=
  let ended := s.update job.number fun x => { x with state := v.state, hasEnded := true }
  match job.outcome.write result with
  | .error _ => (ended.notify [.refused ⟨job.name⟩], .error ⟨job.name⟩)
  | .ok outcome =>
    ((ended.update job.number fun x => { x with outcome := outcome }).publish lane
      [.finished result.id result.message result.succeeded result.canceled,
        .notification result.id v.severity result.message],
      .ok result)

def concludeCanceled (s : Site) (lane : Lane) (job : Job) : Site × Except WrittenTwice Result :=
  let v := verdict true false 0 0
  s.conclude lane job v (job.result false true v.message)

def run (s : Site) (lane : Lane) (job : Job) (request : Nat) : Site :=
  ((s.update job.number fun x => { x with state := .running, holds := some lane.host }).publish lane
    [.started job.name job.startMessage]).notify [.answered request true]

/-- A build asks for the lock: it takes a free one and waits in line for another. -/
def queue (s : Site) (lane : Lane) (job : Job) (request : Nat) : Site :=
  let lock := s.lock lane.host
  if lock.isFree then (s.setLock lane.host { lock with isFree := false }).run lane job request
  else
    let ticket : Ticket := ⟨s.tickets, job.number, request, lane, s.now + lane.pollMs⟩
    { s.setLock lane.host { lock with queue := lock.queue ++ [ticket] } with tickets := s.tickets + 1 }

def look (s : Site) (lane : Lane) (job : Job) (request : Nat) : Site :=
  if s.isCanceled job then
    match s.concludeCanceled lane job with
    | (s, .ok _) => s.notify [.answered request false]
    | (s, .error _) => s
  else s.queue lane job request

/-- A build is to start; only an idle one does. -/
def request (s : Site) (lane : Lane) (build : Nat) : Site × Nat :=
  let request := s.requests
  let s : Site := { s with requests := request + 1 }
  match s.job? build with
  | none => (s, request)
  | some job =>
    if job.state = .idle then
      ((s.update build fun x => { x with state := .waiting }).look lane { job with state := .waiting } request, request)
    else (s.notify [.answered request false], request)

/-- A waiter whose poll interval has ended leaves the line and looks again. -/
def expire (s : Site) (ticket : Ticket) : Site :=
  let lock := s.lock ticket.lane.host
  if lock.queue.contains ticket then
    let s := s.setLock ticket.lane.host (lock.leave ticket.number)
    match s.job? ticket.build with
    | some job => s.look ticket.lane job ticket.request
    | none => s
  else s

/-- The waiter to whom a lock was handed takes it. -/
def take (s : Site) (host : String) : Site :=
  match (s.lock host).handed with
  | none => s
  | some ticket =>
    let s := s.setLock host { s.lock host with handed := none }
    match s.job? ticket.build with
    | some job => s.run ticket.lane job ticket.request
    | none => s

def cancelToken (s : Site) (token : Nat) : Site :=
  { s with canceled := token :: s.canceled }

/-- A build is canceled. An idle one ends here; one that waits or runs notices by itself. -/
def cancel (s : Site) (lane : Lane) (build : Nat) : Site :=
  let s := s.update build fun x => { x with isCanceled := true }
  match s.job? build with
  | some job => if job.state = .idle then (s.concludeCanceled lane job).1 else s
  | none => s

def releaseLock (s : Site) (job : Job) : Site :=
  match job.holds with
  | some host =>
    (s.update job.number fun x => { x with holds := none }).setLock host (s.lock host).release
  | none => s

/-- A build has ended: its lock is given up and its result is written. -/
def finish (s : Site) (lane : Lane) (build : Nat) (succeeded : Bool) : Site × Except WrittenTwice Result :=
  match s.job? build with
  | none => (s, .error ⟨idText build⟩)
  | some job =>
    let canceled := s.isCanceled job
    let v := verdict canceled succeeded job.errors job.warnings
    (s.releaseLock job).conclude lane job v (job.result succeeded canceled v.message)

def progress (s : Site) (lane : Lane) (build : Nat) (message : String) : Site :=
  s.publish lane [.progress (idText build) message]

/-- So many errors more; the count wraps around. -/
def addErrors (s : Site) (build n : Nat) : Site :=
  s.update build fun x => { x with errors := x.errors + UInt32.ofNat n }

/-- So many warnings more; the count wraps around. -/
def addWarnings (s : Site) (build n : Nat) : Site :=
  s.update build fun x => { x with warnings := x.warnings + UInt32.ofNat n }

def awaitResult (s : Site) (build : Nat) : Site :=
  s.update build fun x => { x with outcome := x.outcome.join }

def serveReaders (s : Site) (build : Nat) : Site :=
  s.update build fun x => { x with outcome := x.outcome.settle }

end Site
end CrateYard.Build
