import CrateYard.Refresh.Load

/-! A refresh on its way: first the two questions about the compiler, then one about each project that was attached
at the start, all at once. It has landed when every project is loaded. -/

namespace CrateYard

/-- A value that arrives at a time. Waits are numbered in the order in which they begin. -/
structure Pending (α : Type) where
  due : Nat
  order : Nat
  value : α

/-- One project of a refresh. -/
inductive Loading where
  | waiting (old : Project) (answer : Pending (Except ToolError Metadata))
  | loaded (project : Project)

inductive Flight where
  | probing (snapshot : List Project) (compiler : Pending (Except ToolError Compiler))
      (sysroot : Pending (Except ToolError Path))
  | loading (probe : Probe) (projects : List Loading)

structure Instant where
  now : Nat
  tree : FileTree
  toolchain : Toolchain

namespace Reply

def ask (r : Reply α) (now order : Nat) : Pending (Except ToolError α) :=
  ⟨now + r.delay, order, r.answer⟩

end Reply

namespace Loading

def poll (i : Instant) (probe : Probe) : Loading → Loading
  | .waiting old answer =>
    if answer.due ≤ i.now then .loaded (probe.refreshed old (Workspace.ofAnswer i.tree old.manifest answer.value))
    else .waiting old answer
  | .loaded project => .loaded project

def project? : Loading → Option Project
  | .loaded project => some project
  | .waiting _ _ => none

def wait? : Loading → Option (Nat × Nat)
  | .waiting _ answer => some (answer.due, answer.order)
  | .loaded _ => none

end Loading

namespace Flight

/-- The refresh of a snapshot, with the questions about the compiler asked. -/
def start (i : Instant) (order : Nat) (snapshot : List Project) : Flight :=
  .probing snapshot (i.toolchain.compiler.ask i.now order) (i.toolchain.sysroot.ask i.now (order + 1))

/-- The waits for all projects, begun now. -/
def depart (i : Instant) (order : Nat) : List Project → List Loading
  | [] => []
  | p :: rest => .waiting p ((i.toolchain.metadata p.manifest).ask i.now order) :: depart i (order + 1) rest

/-- Takes the answers that have arrived, and asks what can be asked with them. -/
def poll (i : Instant) (order : Nat) : Flight → Flight × List Call
  | .probing snapshot compiler sysroot =>
    if compiler.due ≤ i.now ∧ sysroot.due ≤ i.now then
      let probe := Probe.ofAnswers i.tree compiler.value sysroot.value
      (.loading probe ((depart i order snapshot).map (Loading.poll i probe)),
        snapshot.map fun p => .metadata p.manifest)
    else (.probing snapshot compiler sysroot, [])
  | .loading probe projects => (.loading probe (projects.map (Loading.poll i probe)), [])

def landed? : Flight → Option (List Project)
  | .probing _ _ _ => none
  | .loading _ projects => projects.mapM Loading.project?

/-- The waits that have not ended: when they end, and their numbers. -/
def waits : Flight → List (Nat × Nat)
  | .probing _ compiler sysroot => [(compiler.due, compiler.order), (sysroot.due, sysroot.order)]
  | .loading _ projects => projects.filterMap Loading.wait?

def nextDue? (f : Flight) (now : Nat) : Option Nat :=
  ((f.waits.map (·.1)).filter (now < ·)).min?

/-- The number of the first wait that ends at `now`, if one does. -/
def turnAt? (f : Flight) (now : Nat) : Option Nat :=
  ((f.waits.filter fun w => w.1 = now).map (·.2)).min?

/-- When the flight lands, if the tools keep to their answers. -/
def landingTime (f : Flight) (toolchain : Toolchain) : Nat :=
  let asked := (f.waits.map (·.1)).foldl max 0
  match f with
  | .probing snapshot _ _ =>
    asked + (snapshot.map fun p => (toolchain.metadata p.manifest).delay).foldl max 0
  | .loading _ _ => asked

end Flight
end CrateYard
