import CrateYard.Discovery
import CrateYard.Proofs.FileTree.Legible
import CrateYard.Proofs.FileTree.Spelling

/-! What the search for manifests finds. A directory is met along a chain of entries, and it is the outermost one on its
chain that holds a manifest. The search finds the manifests of all such directories within its depth whose chains have
names that are text, and no others: what is behind any other name it does not see. Links can lead to one manifest along
many chains, and round in circles; each manifest is listed once all the same. -/

namespace CrateYard

/-! The order of paths. -/

namespace Component

def rank : Component → Nat
  | .root => 0
  | .here => 1
  | .up => 2
  | .name _ => 3

def label : Component → String
  | .name s => s
  | _ => ""

/-- Components are ordered by their kind, and names among themselves by their text. -/
theorem compare_eq : (compare : Component → Component → Ordering) = compareLex (compareOn rank) (compareOn label) := by
  funext a b
  cases a with
  | name s =>
    cases b with
    | name s' =>
      change instOrdComponent.ord (.name s) (.name s') = _
      simp [instOrdComponent.ord, compareLex, compareOn, rank, label]
    | _ => rfl
  | _ => cases b <;> rfl

instance : Std.TransOrd Component := by
  rw [Std.TransOrd, compare_eq]
  infer_instance

instance : Std.LawfulEqOrd Component where
  eq_of_compare {a b} h := by
    rw [compare_eq, compareLex_eq_eq] at h
    obtain ⟨hrank, hlabel⟩ : a.rank = b.rank ∧ a.label = b.label := by simpa [compareOn] using h
    cases a <;> cases b <;> simp_all [rank, label]

end Component

namespace Path

variable {p q r : Path}

theorem le_trans (p q r : Path) (h : p.le q = true) (h' : q.le r = true) : p.le r = true :=
  Std.TransCmp.isLE_trans h h'

theorem le_total (p q : Path) : (p.le q || q.le p) = true := by
  have hswap : compare q.components p.components = (compare p.components q.components).swap := Std.OrientedCmp.eq_swap
  rw [le, le, hswap]
  cases compare p.components q.components <;> rfl

end Path

namespace Discovery

variable {t : FileTree} {depth : Nat} {root p q : Path} {name : String} {names : List String} {l : List Path}

/-! What becomes of a row when equal neighbours are dropped. -/

def below (root : Path) (names : List String) : Path :=
  names.foldl (fun dir name => dir.join ⟨name⟩) root

/-- The manifest that a directory holds, or would hold. -/
def manifestAt (root : Path) (names : List String) : Path :=
  (below root names).join .manifestName

/-- The entries `names`, one in the other, lead from `root` to a directory with a manifest, and to none before it. -/
structure Outermost (t : FileTree) (root : Path) (names : List String) : Prop where
  entry : ∀ part name, part ++ [name] <+: names →
    .text name ∈ t.list (below root part) ∧ t.isDirectory (below root (part ++ [name])) = true
  searched : ∀ name ∈ names, name.toList.head? ≠ some '.' ∧ name ≠ "target"
  holds : t.isFile (manifestAt root names) = true
  first : ∀ part, part <+: names → part ≠ names → t.isFile (manifestAt root part) = false

theorem Outermost.isDirectory (h : Outermost t root names) (hroot : root.isEmpty = false) :
    t.isDirectory (below root names) = true := by
  rcases List.eq_nil_or_concat' names with rfl | ⟨part, name, rfl⟩
  · exact FileTree.isDirectory_of_isFile_join (by decide) hroot h.holds
  · exact (h.entry part name (List.prefix_refl _)).2

end Discovery

end CrateYard
