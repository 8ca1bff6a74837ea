import CrateYard.Text.Split

/-! What a target is built as. -/

namespace CrateYard

inductive LibKind where
  | lib
  | rlib
  | dylib
  | cdylib
  | staticlib
  | procMacro
  | unknown
deriving DecidableEq, Repr, Inhabited

namespace LibKind

def all : List LibKind := [.lib, .rlib, .dylib, .cdylib, .staticlib, .procMacro, .unknown]

def text : LibKind → String
  | .lib => "lib"
  | .rlib => "rlib"
  | .dylib => "dylib"
  | .cdylib => "cdylib"
  | .staticlib => "staticlib"
  | .procMacro => "proc-macro"
  | .unknown => "unknown"

def ofText? (s : String) : Option LibKind :=
  all.find? fun k => k.text = s

/-- The flavour that a kind names: a listed one, or an unknown one if the name ends in `lib`. -/
def ofKind? (kind : String) : Option LibKind :=
  match all.find? fun k => k.text = kind && k ≠ .unknown with
  | some k => some k
  | none => if ['l', 'i', 'b'].isSuffixOf kind.toList then some .unknown else none

end LibKind

structure LibKinds where
  lib : Bool
  rlib : Bool
  dylib : Bool
  cdylib : Bool
  staticlib : Bool
  procMacro : Bool
  unknown : Bool
deriving DecidableEq, Repr, Inhabited

namespace LibKinds

def empty : LibKinds := ⟨false, false, false, false, false, false, false⟩

def contains (s : LibKinds) : LibKind → Bool
  | .lib => s.lib
  | .rlib => s.rlib
  | .dylib => s.dylib
  | .cdylib => s.cdylib
  | .staticlib => s.staticlib
  | .procMacro => s.procMacro
  | .unknown => s.unknown

def insert (s : LibKinds) : LibKind → LibKinds
  | .lib => { s with lib := true }
  | .rlib => { s with rlib := true }
  | .dylib => { s with dylib := true }
  | .cdylib => { s with cdylib := true }
  | .staticlib => { s with staticlib := true }
  | .procMacro => { s with procMacro := true }
  | .unknown => { s with unknown := true }

def ofList (kinds : List LibKind) : LibKinds :=
  kinds.foldl insert empty

def toList (s : LibKinds) : List LibKind :=
  LibKind.all.filter s.contains

def isEmpty (s : LibKinds) : Bool :=
  s.toList.isEmpty

def ofKinds (kinds : List String) : LibKinds :=
  ofList (kinds.filterMap LibKind.ofKind?)

theorem contains_insert (s : LibKinds) (a b : LibKind) :
    (s.insert a).contains b = (s.contains b || a = b) := by
  cases a <;> cases b <;> simp [insert, contains]

theorem contains_foldl_insert (kinds : List LibKind) (s : LibKinds) (b : LibKind) :
    (kinds.foldl insert s).contains b = (s.contains b || decide (b ∈ kinds)) := by
  induction kinds generalizing s with
  | nil => simp
  | cons a rest ih =>
    rw [List.foldl_cons, ih, contains_insert, Bool.or_assoc]
    congr 1
    simp [List.mem_cons, eq_comm, Bool.decide_or]

theorem contains_ofList (kinds : List LibKind) (b : LibKind) :
    (ofList kinds).contains b = decide (b ∈ kinds) := by
  rw [ofList, contains_foldl_insert]
  cases b <;> rfl

theorem ext_contains {s t : LibKinds} (h : ∀ k, s.contains k = t.contains k) : s = t := by
  cases s; cases t
  simp only [mk.injEq]
  exact ⟨h .lib, h .rlib, h .dylib, h .cdylib, h .staticlib, h .procMacro, h .unknown⟩

end LibKinds

inductive TargetKind where
  | lib (kinds : LibKinds)
  | bin
  | test
  | exampleBin
  | exampleLib (kinds : LibKinds)
  | bench
  | unknown
deriving DecidableEq, Repr, Inhabited

namespace TargetKind

/-- The kind of a target whose kinds make it a library, if one of them does. -/
def ofLibraries (kinds : List String) : TargetKind :=
  let libs := LibKinds.ofKinds kinds
  if libs.isEmpty then .unknown else .lib libs

/-- The kind of a target from the kinds and crate types it lists. A single well-known kind counts as it is
written; otherwise any kind that names a library flavour makes it a library. -/
def ofNames (kinds crateTypes : List String) : TargetKind :=
  match kinds with
  | ["bin"] => .bin
  | ["test"] => .test
  | ["bench"] => .bench
  | ["example"] => if crateTypes.contains "bin" then .exampleBin else .exampleLib (.ofKinds crateTypes)
  | kinds => ofLibraries kinds

def isLib : TargetKind → Bool
  | .lib _ => true
  | _ => false

def isProcMacro : TargetKind → Bool
  | .lib kinds => kinds.procMacro
  | _ => false

def isBin : TargetKind → Bool
  | .bin => true
  | _ => false

def isTest : TargetKind → Bool
  | .test => true
  | _ => false

def isExample : TargetKind → Bool
  | .exampleBin | .exampleLib _ => true
  | _ => false

def isBench : TargetKind → Bool
  | .bench => true
  | _ => false

/-- The build can make an executable of the target. -/
def isExecutable : TargetKind → Bool
  | .bin | .test | .exampleBin | .bench => true
  | .lib _ | .exampleLib _ | .unknown => false

end TargetKind
end CrateYard
