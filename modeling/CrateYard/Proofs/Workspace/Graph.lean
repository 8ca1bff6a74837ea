import CrateYard.Proofs.Workspace.Firsts
import Mathlib.Data.List.Nodup

/-! What a graph holds, said of what it was made from. A package is found by its id, which no other package has; an
edge leads from one of the listed packages to another, and is listed for the first of them. -/

namespace CrateYard.Graph

variable {g : Graph} {root : Path} {packages : List Package} {edges : PackageId → List Dependency}
  {known : List PackageId} {listed : List Dependency} {a b id : PackageId}

theorem contains_iff : g.contains id = true ↔ id ∈ g.ids := by
  simp [contains, node?, ids, List.find?_isSome]

theorem node?_eq_some_iff (h : g.ids.Nodup) {n : Node} :
    g.node? id = some n ↔ n ∈ g.nodes ∧ n.package.id = id := by
  constructor
  · intro hn
    exact ⟨List.mem_of_find?_eq_some hn, by simpa using List.find?_some hn⟩
  · rintro ⟨hn, rfl⟩
    obtain ⟨m, hm⟩ := Option.isSome_iff_exists.1 (contains_iff.2 (List.mem_map.2 ⟨n, hn, rfl⟩))
    have hid : m.package.id = n.package.id := by simpa using List.find?_some hm
    rwa [List.inj_on_of_nodup_map h (List.mem_of_find?_eq_some hm) hn hid] at hm

theorem package?_eq_some_iff (h : g.ids.Nodup) {p : Package} :
    g.package? id = some p ↔ p ∈ g.packages ∧ p.id = id := by
  simp only [package?, packages, Option.map_eq_some_iff, node?_eq_some_iff h, List.mem_map]
  constructor
  · rintro ⟨n, ⟨hn, hid⟩, rfl⟩
    exact ⟨⟨n, hn, rfl⟩, hid⟩
  · rintro ⟨⟨n, hn, rfl⟩, hid⟩
    exact ⟨n, ⟨hn, hid⟩, rfl⟩

theorem edges?_eq_some_iff (h : g.ids.Nodup) :
    g.edges? id = some listed ↔ ∃ n ∈ g.nodes, n.package.id = id ∧ n.edges = listed := by
  simp only [edges?, Option.map_eq_some_iff, node?_eq_some_iff h, and_assoc]

theorem edges?_eq_none_iff : g.edges? id = none ↔ id ∉ g.ids := by
  rw [← contains_iff, contains, edges?, Option.map_eq_none_iff, Bool.not_eq_true, Option.isSome_eq_false_iff,
    Option.isNone_iff_eq_none]

theorem mem_successors_iff (h : g.ids.Nodup) :
    b ∈ g.successors a ↔ ∃ n ∈ g.nodes, n.package.id = a ∧ ∃ d ∈ n.edges, d.package = b := by
  unfold successors
  cases he : g.edges? a with
  | none =>
    have ha : a ∉ g.ids := edges?_eq_none_iff.1 he
    simp only [Option.getD_none, List.map_nil, List.not_mem_nil, false_iff]
    rintro ⟨n, hn, rfl, -⟩
    exact ha (List.mem_map.2 ⟨n, hn, rfl⟩)
  | some es =>
    obtain ⟨n, hn, rfl, rfl⟩ := (edges?_eq_some_iff h).1 he
    rw [Option.getD_some, List.mem_map]
    constructor
    · exact fun hd => ⟨n, hn, rfl, hd⟩
    · rintro ⟨m, hm, hid, hd⟩
      rwa [List.inj_on_of_nodup_map h hm hn hid] at hd

/-! The edges that a graph keeps. -/

theorem keepEdges_eq (known : List PackageId) (listed : List Dependency) :
    keepEdges known listed = firstsBy (·.package) [] (listed.filter fun d => d.package ∈ known) := by
  simp only [keepEdges, firstEdgesFrom_eq, List.contains_eq_mem]

theorem keepEdges_congr {known' : List PackageId} (h : ∀ id, id ∈ known ↔ id ∈ known') (listed : List Dependency) :
    keepEdges known listed = keepEdges known' listed := by
  simp only [keepEdges_eq, h]

theorem nodup_keepEdges : ((keepEdges known listed).map (·.package)).Nodup := by
  rw [keepEdges_eq]
  exact nodup_keys_firstsBy

theorem mem_keepEdges_iff :
    (∃ d ∈ keepEdges known listed, d.package = b) ↔ b ∈ known ∧ ∃ d ∈ listed, d.package = b := by
  rw [← List.mem_map, keepEdges_eq, mem_keys_firstsBy, List.mem_map]
  simp only [List.mem_filter, decide_eq_true_eq, List.not_mem_nil, not_false_eq_true, and_true]
  constructor
  · rintro ⟨d, ⟨hd, hk⟩, rfl⟩
    exact ⟨hk, d, hd, rfl⟩
  · rintro ⟨hk, d, hd, rfl⟩
    exact ⟨d, ⟨hd, hk⟩, rfl⟩

theorem keepEdges_of_nodup (h : (listed.map (·.package)).Nodup) (hk : ∀ d ∈ listed, d.package ∈ known) :
    keepEdges known listed = listed := by
  rw [keepEdges_eq, List.filter_eq_self.2 fun d hd => decide_eq_true (hk d hd),
    firstsBy_of_nodup h fun d _ => List.not_mem_nil]

/-! The graph of some packages and edges. -/

theorem nodes_ofPackages :
    (ofPackages root packages edges).nodes =
      (firstsBy (·.id) [] packages).map fun p => ⟨p, keepEdges (packages.map (·.id)) (edges p.id)⟩ := by
  simp only [ofPackages, firstsFrom_eq]
  refine List.map_congr_left fun p _ => ?_
  congr 1
  refine keepEdges_congr (fun id => ?_) _
  rw [mem_keys_firstsBy]
  simp

theorem packages_ofPackages : (ofPackages root packages edges).packages = firstsBy (·.id) [] packages := by
  simp [Graph.packages, nodes_ofPackages, Function.comp_def]

theorem ids_ofPackages : (ofPackages root packages edges).ids = (firstsBy (·.id) [] packages).map (·.id) := by
  simp [ids, nodes_ofPackages]

theorem nodup_ids_ofPackages : (ofPackages root packages edges).ids.Nodup := by
  rw [ids_ofPackages]
  exact nodup_keys_firstsBy

theorem mem_ids_ofPackages : id ∈ (ofPackages root packages edges).ids ↔ id ∈ packages.map (·.id) := by
  rw [ids_ofPackages, mem_keys_firstsBy]
  simp

theorem edges?_ofPackages (h : id ∈ packages.map (·.id)) :
    (ofPackages root packages edges).edges? id = some (keepEdges (packages.map (·.id)) (edges id)) := by
  have hid : id ∈ (ofPackages root packages edges).ids := mem_ids_ofPackages.2 h
  rw [ids_ofPackages] at hid
  obtain ⟨p, hp, rfl⟩ := List.mem_map.1 hid
  rw [edges?_eq_some_iff nodup_ids_ofPackages, nodes_ofPackages]
  exact ⟨_, List.mem_map_of_mem hp, rfl, rfl⟩

theorem nodes_ofPackages_of_nodup (h : (packages.map (·.id)).Nodup) :
    (ofPackages root packages edges).nodes =
      packages.map fun p => ⟨p, keepEdges (packages.map (·.id)) (edges p.id)⟩ := by
  rw [nodes_ofPackages, firstsBy_of_nodup h fun p _ => List.not_mem_nil]

end CrateYard.Graph
