import CrateYard.Workspace.Graph

/-! Everything that edges lead to. The search keeps the packages that it has not met yet; each step takes one
package from a stack, and moves those of its successors that are new from the one to the other. -/

namespace CrateYard.Graph

/-- The items of `next` that are still in `fresh`, each once, and what is left of `fresh`. -/
def discover (fresh : List PackageId) : List PackageId → List PackageId × List PackageId
  | [] => ([], fresh)
  | id :: rest =>
    if fresh.contains id then
      let (found, left) := discover (fresh.erase id) rest
      (id :: found, left)
    else discover fresh rest

theorem discover_length (fresh next : List PackageId) :
    (discover fresh next).1.length + (discover fresh next).2.length = fresh.length := by
  induction next generalizing fresh with
  | nil => simp [discover]
  | cons id rest ih =>
    rw [discover]
    split
    · next h =>
      have hm : id ∈ fresh := by simpa using h
      have := ih (fresh.erase id)
      have hl := List.length_erase_of_mem hm
      have hp := List.length_pos_of_mem hm
      simp only [List.length_cons]
      omega
    · exact ih fresh

def explore (next : PackageId → List PackageId) (fresh stack : List PackageId) : List PackageId :=
  match stack with
  | [] => []
  | current :: stack =>
    let step := discover fresh (next current)
    step.1 ++ explore next step.2 (step.1.reverse ++ stack)
termination_by (fresh.length, stack.length)
decreasing_by
  have h := discover_length fresh (next current)
  simp only [List.length_append, List.length_reverse, List.length_cons]
  by_cases hz : (discover fresh (next current)).1.length = 0
  · have : (discover fresh (next current)).2.length = fresh.length := by omega
    rw [this, hz]
    exact Prod.Lex.right _ (by omega)
  · exact Prod.Lex.left _ _ (by omega)

/-- What `next` leads to from a package, that package left out. -/
def closure (g : Graph) (next : PackageId → List PackageId) (id : PackageId) : List PackageId :=
  explore next (g.ids.erase id) [id]

def dependencies? (g : Graph) (id : PackageId) : Option (List PackageId) :=
  if g.contains id then some (g.closure g.successors id) else none

def dependents? (g : Graph) (id : PackageId) : Option (List PackageId) :=
  if g.contains id then some (g.closure g.predecessors id) else none

end CrateYard.Graph
