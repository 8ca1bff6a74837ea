import CrateYard.Json.Token

/-! Values from tokens. The reader keeps the containers that are still open on a stack, so that a
value may nest without limit, and takes one token at a time. -/

namespace CrateYard.Json

namespace Reader

/-- An open container with what it holds so far, last first. -/
inductive Frame where
  | items (done : List Value)
  | members (done : List (Literal × Value))
  /-- The value of the member with this name is awaited. -/
  | member (done : List (Literal × Value)) (name : Literal)

inductive Next where
  | value
  | valueOrClose
  | nameOrClose
  | name
  | colon (name : Literal)
  | separator
  | nothing (result : Value)

structure State where
  stack : List Frame
  next : Next

def put (v : Value) : List Frame → State
  | [] => ⟨[], .nothing v⟩
  | .items done :: stack => ⟨.items (v :: done) :: stack, .separator⟩
  | .member done name :: stack => ⟨.members ((name, v) :: done) :: stack, .separator⟩
  | .members done :: stack => ⟨.members done :: stack, .separator⟩

def begin? (stack : List Frame) : Token → Option State
  | .scalar v => some (put v stack)
  | .openArray => some ⟨.items [] :: stack, .valueOrClose⟩
  | .openObject => some ⟨.members [] :: stack, .nameOrClose⟩
  | _ => none

def close? : List Frame → Token → Option State
  | .items done :: stack, .closeArray => some (put (.array done.reverse) stack)
  | .members done :: stack, .closeObject => some (put (.object done.reverse) stack)
  | _, _ => none

def step (s : State) (t : Token) : Option State :=
  match s.next, t with
  | .value, t => begin? s.stack t
  | .valueOrClose, .closeArray => close? s.stack t
  | .valueOrClose, t => begin? s.stack t
  | .nameOrClose, .closeObject => close? s.stack t
  | .nameOrClose, .scalar (.string name) => some ⟨s.stack, .colon name⟩
  | .name, .scalar (.string name) => some ⟨s.stack, .colon name⟩
  | .colon name, .colon =>
    match s.stack with
    | .members done :: stack => some ⟨.member done name :: stack, .value⟩
    | _ => none
  | .separator, .comma =>
    match s.stack with
    | .items _ :: _ => some ⟨s.stack, .value⟩
    | .members _ :: _ => some ⟨s.stack, .name⟩
    | _ => none
  | .separator, t => close? s.stack t
  | _, _ => none

def State.finish? (s : State) : Option Value :=
  match s.next with
  | .nothing v => some v
  | _ => none

end Reader

def Value.ofTokens? (tokens : List Token) : Option Value :=
  (tokens.foldlM Reader.step ⟨[], .value⟩).bind Reader.State.finish?

def Value.parse? (text : String) : Option Value :=
  (Token.ofText? text.toList).bind Value.ofTokens?

end CrateYard.Json
