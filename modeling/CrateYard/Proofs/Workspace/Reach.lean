import CrateYard.Proofs.Workspace.Graph
import CrateYard.Table
import CrateYard.Workspace.Closure
import Mathlib.Logic.Relation

/-! What a package leads to, and what leads to it. The search has met everything that it has put on its stack, and
what it takes off has all its successors met; so it finds what a path of edges leads to and nothing else. Backwards it
follows edges that were turned round one by one, and their order does not show in what is found. -/

namespace CrateYard.Graph

open Relation (TransGen)

variable {g : Graph} {root : Path} {packages : List Package} {edges : PackageId → List Dependency}
  {next : PackageId → List PackageId} {fresh stack : List PackageId} {a b id x : PackageId}

def Step (next : PackageId → List PackageId) (a b : PackageId) : Prop :=
  b ∈ next a

/-- One of the packages has an edge to another of them, or to itself. -/
def Needs (packages : List Package) (edges : PackageId → List Dependency) (a b : PackageId) : Prop :=
  a ∈ packages.map (·.id) ∧ b ∈ packages.map (·.id) ∧ ∃ d ∈ edges a, d.package = b

def arrows (g : Graph) : List (PackageId × PackageId) :=
  g.nodes.flatMap fun n => n.edges.map fun d => (n.package.id, d.package)

/-- Edges turned round one after the other: for each package those that have an edge to it. -/
def turned (order : List (PackageId × PackageId)) : Table PackageId (List PackageId) :=
  order.foldl (fun t arrow => t.set arrow.2 ((t.get? arrow.2).getD [] ++ [arrow.1])) .empty

/-- The dependents of a package, found over edges that were turned round in some order. -/
def dependentsBy? (g : Graph) (order : List (PackageId × PackageId)) (id : PackageId) : Option (List PackageId) :=
  if g.contains id then some (g.closure (fun current => ((turned order).get? current).getD []) id) else none

/-! The search. -/

/-- Nothing is lost between what is found and what is left. -/
theorem discover_perm (fresh next : List PackageId) :
    ((discover fresh next).1 ++ (discover fresh next).2).Perm fresh := by
  induction next generalizing fresh with
  | nil => exact .refl fresh
  | cons id rest ih =>
    rw [discover]
    split
    · next h =>
      have hm : id ∈ fresh := by simpa using h
      exact ((ih (fresh.erase id)).cons id).trans (List.perm_cons_erase hm).symm
    · exact ih fresh

theorem mem_discover {next : List PackageId} : x ∈ (discover fresh next).1 ↔ x ∈ fresh ∧ x ∈ next := by
  induction next generalizing fresh with
  | nil => simp [discover]
  | cons id rest ih =>
    rw [discover]
    split
    · next h =>
      have hm : id ∈ fresh := by simpa using h
      rw [List.mem_cons, ih, List.mem_cons]
      by_cases hx : x = id
      · simp [hx, hm]
      · simp [hx, List.mem_erase_of_ne hx]
    · next h =>
      have hm : id ∉ fresh := by simpa using h
      rw [ih, List.mem_cons]
      constructor
      · rintro ⟨hf, hr⟩
        exact ⟨hf, .inr hr⟩
      · rintro ⟨hf, rfl | hr⟩
        · exact absurd hf hm
        · exact ⟨hf, hr⟩

theorem explore_perm (next : PackageId → List PackageId) (fresh stack : List PackageId) :
    ∃ left, (explore next fresh stack ++ left).Perm fresh := by
  fun_induction explore next fresh stack with
  | case1 fresh => exact ⟨fresh, .refl fresh⟩
  | case2 fresh current stack step ih =>
    obtain ⟨left, hleft⟩ := ih
    refine ⟨left, ?_⟩
    rw [List.append_assoc]
    exact (hleft.append_left step.1).trans (discover_perm fresh (next current))

theorem reached_of_mem_explore (h : x ∈ explore next fresh stack) : ∃ s ∈ stack, TransGen (Step next) s x := by
  fun_induction explore next fresh stack with
  | case1 fresh => simp at h
  | case2 fresh current stack step ih =>
    have hstep : ∀ y ∈ step.1, Step next current y := fun y hy => (mem_discover.1 hy).2
    rcases List.mem_append.1 h with hx | hx
    · exact ⟨current, List.mem_cons_self, .single (hstep x hx)⟩
    · obtain ⟨s, hs, hsx⟩ := ih hx
      rcases List.mem_append.1 hs with hs | hs
      · exact ⟨current, List.mem_cons_self, .head (hstep s (List.mem_reverse.1 hs)) hsx⟩
      · exact ⟨s, List.mem_cons_of_mem current hs, hsx⟩

/-- Whatever was on the stack or was found has its fresh successors found. -/
theorem mem_explore_of_step (hab : Step next a b) (hb : b ∈ fresh) (ha : a ∈ stack ∨ a ∈ explore next fresh stack) :
    b ∈ explore next fresh stack := by
  fun_induction explore next fresh stack with
  | case1 fresh => simp at ha
  | case2 fresh current stack step ih =>
    rw [List.mem_append]
    by_cases hfound : b ∈ step.1
    · exact .inl hfound
    -- `b` is left over, so `a` is not the package that was taken from the stack
    · have hleft : b ∈ step.2 :=
        (List.mem_append.1 ((discover_perm fresh (next current)).mem_iff.2 hb)).resolve_left hfound
      have hne : a ≠ current := fun he => hfound (mem_discover.2 ⟨hb, he ▸ hab⟩)
      refine .inr (ih hleft ?_)
      rcases ha with ha | ha
      · exact .inl (List.mem_append_right _ ((List.mem_cons.1 ha).resolve_left hne))
      · rcases List.mem_append.1 ha with ha | ha
        · exact .inl (List.mem_append_left stack (List.mem_reverse.2 ha))
        · exact .inr ha

theorem nodup_closure (h : g.ids.Nodup) : (g.closure next id).Nodup := by
  obtain ⟨left, hperm⟩ := explore_perm next (g.ids.erase id) [id]
  exact (List.nodup_append.1 (hperm.nodup_iff.2 (h.erase id))).1

theorem mem_closure_iff (h : g.ids.Nodup) (hnext : ∀ a b, Step next a b → b ∈ g.ids) :
    x ∈ g.closure next id ↔ x ≠ id ∧ TransGen (Step next) id x := by
  constructor
  · intro hx
    obtain ⟨left, hperm⟩ := explore_perm next (g.ids.erase id) [id]
    have hfresh : x ∈ g.ids.erase id := hperm.mem_iff.1 (List.mem_append_left left hx)
    obtain ⟨s, hs, hsx⟩ := reached_of_mem_explore hx
    rw [List.mem_singleton.1 hs] at hsx
    exact ⟨(h.mem_erase_iff.1 hfresh).1, hsx⟩
  · rintro ⟨hne, hpath⟩
    have hmet : x = id ∨ x ∈ g.closure next id := by
      -- along the path everything is the start or is found
      clear hne
      induction hpath with
      | @single y hstep =>
        by_cases hy : y = id
        · exact .inl hy
        · exact .inr (mem_explore_of_step hstep (h.mem_erase_iff.2 ⟨hy, hnext _ _ hstep⟩) (.inl List.mem_cons_self))
      | @tail y z _ hstep ih =>
        by_cases hz : z = id
        · exact .inl hz
        · refine .inr (mem_explore_of_step hstep (h.mem_erase_iff.2 ⟨hz, hnext _ _ hstep⟩) ?_)
          exact ih.imp (fun he => List.mem_singleton.2 he) fun hy => hy
    exact hmet.resolve_left hne

/-! The edges, in both directions. -/

theorem mem_successors_ofPackages :
    b ∈ (ofPackages root packages edges).successors a ↔ Needs packages edges a b := by
  unfold successors Needs
  by_cases ha : a ∈ packages.map (·.id)
  · rw [edges?_ofPackages ha, Option.getD_some, List.mem_map, mem_keepEdges_iff]
    exact ⟨fun hb => ⟨ha, hb⟩, fun hb => hb.2⟩
  · rw [edges?_eq_none_iff.2 fun hid => ha (mem_ids_ofPackages.1 hid)]
    simp [ha]

theorem mem_arrows_iff :
    (a, b) ∈ g.arrows ↔ ∃ n ∈ g.nodes, n.package.id = a ∧ ∃ d ∈ n.edges, d.package = b := by
  simp only [arrows, List.mem_flatMap, List.mem_map, Prod.mk.injEq]
  constructor
  · rintro ⟨n, hn, d, hd, rfl, rfl⟩
    exact ⟨n, hn, rfl, d, hd, rfl⟩
  · rintro ⟨n, hn, rfl, d, hd, rfl⟩
    exact ⟨n, hn, d, hd, rfl, rfl⟩

theorem foldl_turn (order : List (PackageId × PackageId)) (t : Table PackageId (List PackageId)) :
    ((order.foldl (fun t arrow => t.set arrow.2 ((t.get? arrow.2).getD [] ++ [arrow.1])) t).get? b).getD [] =
      (t.get? b).getD [] ++ (order.filter fun arrow => arrow.2 = b).map Prod.fst := by
  induction order generalizing t with
  | nil => simp
  | cons arrow rest ih =>
    rw [List.foldl_cons, ih, Table.get?_set]
    by_cases hb : b = arrow.2
    · simp [hb]
    · simp [hb, Ne.symm hb]

theorem get?_turned (order : List (PackageId × PackageId)) :
    ((turned order).get? b).getD [] = (order.filter fun arrow => arrow.2 = b).map Prod.fst := by
  rw [turned, foldl_turn]
  simp [Table.get?, Table.empty]

theorem sources_of_node {n : Node} (h : (n.edges.map (·.package)).Nodup) :
    ((n.edges.map fun d => (n.package.id, d.package)).filter fun arrow => arrow.2 = b).map Prod.fst =
      if n.edges.any fun d => d.package = b then [n.package.id] else [] := by
  have hcount : ((n.edges.map fun d => (n.package.id, d.package)).filter fun arrow => arrow.2 = b).map Prod.fst =
      List.replicate ((n.edges.map (·.package)).count b) n.package.id := by
    rw [List.filter_map, List.map_map, List.count, List.countP_map, List.countP_eq_length_filter]
    exact List.map_const' ..
  rw [hcount, h.count]
  by_cases hb : ∃ d ∈ n.edges, d.package = b
  · simp [hb]
  · simp [hb]

theorem turned_arrows (h : ∀ n ∈ g.nodes, (n.edges.map (·.package)).Nodup) :
    ((turned g.arrows).get? b).getD [] = g.predecessors b := by
  rw [get?_turned, arrows, predecessors]
  generalize g.nodes = nodes at h
  induction nodes with
  | nil => rfl
  | cons n rest ih =>
    rw [List.flatMap_cons, List.filter_append, List.map_append, sources_of_node (h n List.mem_cons_self),
      ih fun m hm => h m (List.mem_cons_of_mem n hm), List.filter_cons]
    split
    · rfl
    · rfl

theorem dependentsBy?_arrows (h : ∀ n ∈ g.nodes, (n.edges.map (·.package)).Nodup) :
    g.dependentsBy? g.arrows id = g.dependents? id := by
  simp only [dependentsBy?, dependents?, turned_arrows h]

/-! The graph of some packages and edges. -/

theorem nodup_edges_ofPackages : ∀ n ∈ (ofPackages root packages edges).nodes, (n.edges.map (·.package)).Nodup := by
  intro n hn
  rw [nodes_ofPackages] at hn
  obtain ⟨p, -, rfl⟩ := List.mem_map.1 hn
  exact nodup_keepEdges

/-- Edges turned round in any order lead from a package to those that need it. -/
theorem step_turned_iff {order : List (PackageId × PackageId)}
    (h : order.Perm (ofPackages root packages edges).arrows) :
    Step (fun current => ((turned order).get? current).getD []) b a ↔ Needs packages edges a b := by
  have hneeds : Needs packages edges a b ↔ b ∈ (ofPackages root packages edges).successors a :=
    mem_successors_ofPackages.symm
  rw [Step, get?_turned, hneeds, mem_successors_iff nodup_ids_ofPackages, ← mem_arrows_iff, ← h.mem_iff, List.mem_map]
  simp

theorem dependencies?_eq_some_iff {below : List PackageId} :
    g.dependencies? id = some below ↔ g.contains id = true ∧ g.closure g.successors id = below := by
  simp [dependencies?]

theorem dependents?_eq_some_iff {above : List PackageId} :
    g.dependents? id = some above ↔ g.contains id = true ∧ g.closure g.predecessors id = above := by
  simp [dependents?]

theorem dependencies?_ofPackages (h : id ∈ packages.map (·.id)) :
    ∃ below, (ofPackages root packages edges).dependencies? id = some below ∧ below.Nodup ∧
      ∀ x, x ∈ below ↔ x ≠ id ∧ TransGen (Needs packages edges) id x := by
  have hstep : Step (ofPackages root packages edges).successors = Needs packages edges := by
    funext a b
    exact propext mem_successors_ofPackages
  refine ⟨_, if_pos (contains_iff.2 (mem_ids_ofPackages.2 h)), nodup_closure nodup_ids_ofPackages, fun x => ?_⟩
  rw [mem_closure_iff nodup_ids_ofPackages, hstep]
  intro a b hab
  rw [hstep] at hab
  exact mem_ids_ofPackages.2 hab.2.1

theorem dependentsBy?_ofPackages (h : id ∈ packages.map (·.id)) {order : List (PackageId × PackageId)}
    (ho : order.Perm (ofPackages root packages edges).arrows) :
    ∃ above, (ofPackages root packages edges).dependentsBy? order id = some above ∧ above.Nodup ∧
      ∀ x, x ∈ above ↔ x ≠ id ∧ TransGen (Needs packages edges) x id := by
  have hstep : Step (fun current => ((turned order).get? current).getD []) = Function.swap (Needs packages edges) := by
    funext b a
    exact propext (step_turned_iff ho)
  refine ⟨_, if_pos (contains_iff.2 (mem_ids_ofPackages.2 h)), nodup_closure nodup_ids_ofPackages, fun x => ?_⟩
  rw [mem_closure_iff nodup_ids_ofPackages, hstep, Relation.transGen_swap]
  intro b a hab
  rw [hstep] at hab
  exact mem_ids_ofPackages.2 hab.1

/-- In the graph of any packages and any edges, the dependencies of a package are the others that a path of edges
leads to, and its dependents the others from which one leads to it, each listed once. The order in which the edges are
turned round changes nothing but the order of the dependents. A package that is not there has no answer. -/
theorem closures_exact (root : Path) (packages : List Package) (edges : PackageId → List Dependency) :
    let g := ofPackages root packages edges
    (∀ id ∈ packages.map (·.id), ∃ below above,
      g.dependencies? id = some below ∧ below.Nodup ∧
      (∀ x, x ∈ below ↔ x ≠ id ∧ TransGen (Needs packages edges) id x) ∧
      g.dependents? id = some above ∧ above.Nodup ∧
      (∀ x, x ∈ above ↔ x ≠ id ∧ TransGen (Needs packages edges) x id) ∧
      g.dependentsBy? g.arrows id = some above ∧
      ∀ order, order.Perm g.arrows → ∃ found, g.dependentsBy? order id = some found ∧ found.Perm above) ∧
    (∀ a b below above, a ≠ b → g.dependencies? a = some below → g.dependents? b = some above →
      (b ∈ below ↔ a ∈ above)) ∧
    (∀ id, id ∉ packages.map (·.id) →
      g.dependencies? id = none ∧ g.dependents? id = none ∧ ∀ order, g.dependentsBy? order id = none) := by
  intro g
  have hsame : ∀ id, g.dependentsBy? g.arrows id = g.dependents? id := fun id =>
    dependentsBy?_arrows nodup_edges_ofPackages
  refine ⟨fun id hid => ?_, fun a b below above hne hbelow habove => ?_, fun id hid => ?_⟩
  · obtain ⟨below, hbelow, hnodup, hmem⟩ := dependencies?_ofPackages hid
    obtain ⟨above, habove, hnodup', hmem'⟩ := dependentsBy?_ofPackages hid (List.Perm.refl g.arrows)
    refine ⟨below, above, hbelow, hnodup, hmem, (hsame id).symm.trans habove, hnodup', hmem', habove,
      fun order ho => ?_⟩
    obtain ⟨found, hfound, hn, hm⟩ := dependentsBy?_ofPackages hid ho
    exact ⟨found, hfound, (List.perm_ext_iff_of_nodup hn hnodup').2 fun x => (hm x).trans (hmem' x).symm⟩
  · have ha := mem_ids_ofPackages.1 (contains_iff.1 (dependencies?_eq_some_iff.1 hbelow).1)
    have hb := mem_ids_ofPackages.1 (contains_iff.1 (dependents?_eq_some_iff.1 habove).1)
    obtain ⟨below', hbelow', -, hmem⟩ := dependencies?_ofPackages ha
    obtain ⟨above', habove', -, hmem'⟩ := dependentsBy?_ofPackages hb (List.Perm.refl g.arrows)
    cases hbelow.symm.trans hbelow'
    cases (habove.symm.trans (hsame b).symm).trans habove'
    rw [hmem, hmem', ne_comm]
  · have hc : g.contains id = false := by
      rw [← Bool.not_eq_true, contains_iff, mem_ids_ofPackages]
      exact hid
    simp [dependencies?, dependents?, dependentsBy?, hc]

/-! Two packages that need each other and a third. One is listed twice, one edge leads to itself, one to nowhere, and
one is listed twice. -/

def knot : List Package :=
  ["a", "b", "b", "c"].map fun name => { (default : Package) with id := ⟨name⟩ }

def knotEdges (id : PackageId) : List Dependency :=
  match id.text with
  | "a" => [⟨⟨"b"⟩, none⟩, ⟨⟨"nowhere"⟩, none⟩, ⟨⟨"b"⟩, some "again"⟩]
  | "b" => [⟨⟨"b"⟩, none⟩, ⟨⟨"a"⟩, none⟩, ⟨⟨"c"⟩, none⟩]
  | _ => []

theorem closures_exact_knot :
    let g := ofPackages ⟨"/ws"⟩ knot knotEdges
    ⟨"a"⟩ ∈ knot.map (·.id) ∧ ∃ below above found,
      g.dependencies? ⟨"a"⟩ = some below ∧ below.Nodup ∧ ⟨"a"⟩ ∉ below ∧ ⟨"b"⟩ ∈ below ∧ ⟨"c"⟩ ∈ below ∧
      g.dependents? ⟨"a"⟩ = some above ∧ ⟨"a"⟩ ∉ above ∧ ⟨"b"⟩ ∈ above ∧
      g.dependentsBy? g.arrows.reverse ⟨"a"⟩ = some found ∧ found.Perm above := by
  intro g
  have hid : ⟨"a"⟩ ∈ knot.map (·.id) := by decide
  have hab : Needs knot knotEdges ⟨"a"⟩ ⟨"b"⟩ := ⟨by decide, by decide, by decide⟩
  have hba : Needs knot knotEdges ⟨"b"⟩ ⟨"a"⟩ := ⟨by decide, by decide, by decide⟩
  have hbc : Needs knot knotEdges ⟨"b"⟩ ⟨"c"⟩ := ⟨by decide, by decide, by decide⟩
  obtain ⟨below, above, hbelow, hnodup, hmem, habove, -, hmem', -, horder⟩ :=
    (closures_exact ⟨"/ws"⟩ knot knotEdges).1 ⟨"a"⟩ hid
  obtain ⟨found, hfound, hperm⟩ := horder g.arrows.reverse (List.reverse_perm _)
  refine ⟨hid, below, above, found, hbelow, hnodup, fun h => ((hmem _).1 h).1 rfl,
    (hmem _).2 ⟨by decide, .single hab⟩, (hmem _).2 ⟨by decide, .tail (.single hab) hbc⟩, habove,
    fun h => ((hmem' _).1 h).1 rfl, (hmem' _).2 ⟨by decide, .single hba⟩, hfound, hperm⟩

end CrateYard.Graph
