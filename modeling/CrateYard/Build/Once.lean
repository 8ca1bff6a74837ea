/-! A cell that is written once, and readers that wait for it. A reader looks at the cell, and where it is empty
remembers which version it saw; it parks only if the cell still has that version, and a write wakes the parked. -/

namespace CrateYard

structure Once (α : Type) where
  value : Option α
  version : Nat
deriving Repr

namespace Once

variable {α : Type}

def empty : Once α := ⟨none, 0⟩

instance : Inhabited (Once α) := ⟨empty⟩

inductive Error where
  | alreadyWritten
deriving DecidableEq, Repr

def Error.message : Error → String
  | .alreadyWritten => "build result was already resolved"

def isWritten (s : Once α) : Bool :=
  s.value.isSome

def write (s : Once α) (a : α) : Except Error (Once α) :=
  if s.isWritten then .error .alreadyWritten else .ok ⟨some a, s.version + 1⟩

end Once

inductive Reader (α : Type) where
  | looking
  | looked (seen : Nat)
  | parked (seen : Nat)
  | done (a : α)
deriving Repr

namespace Reader

variable {α : Type}

def step (s : Once α) : Reader α → Reader α
  | .looking =>
    match s.value with
    | some a => .done a
    | none => .looked s.version
  | .looked seen => if s.version = seen then .parked seen else .looking
  | r => r

/-- A write wakes a parked reader. -/
def wake : Reader α → Reader α
  | .parked seen => .looked seen
  | r => r

def run (s : Once α) (r : Reader α) : Reader α :=
  ((r.step s).step s).step s

def value? : Reader α → Option α
  | .done a => some a
  | _ => none

end Reader

structure Readership (α : Type) where
  cell : Once α
  readers : List (Reader α)
deriving Repr

namespace Readership

variable {α : Type}

def empty : Readership α := ⟨.empty, []⟩

instance : Inhabited (Readership α) := ⟨empty⟩

def write (r : Readership α) (a : α) : Except Once.Error (Readership α) :=
  (r.cell.write a).map fun cell => ⟨cell, r.readers.map Reader.wake⟩

def join (r : Readership α) : Readership α :=
  { r with readers := r.readers ++ [.looking] }

def stepReader (r : Readership α) (n : Nat) : Readership α :=
  { r with readers := r.readers.modify n (Reader.step r.cell) }

/-- Every reader takes the steps that it can. -/
def settle (r : Readership α) : Readership α :=
  { r with readers := r.readers.map (Reader.run r.cell) }

end Readership
end CrateYard
