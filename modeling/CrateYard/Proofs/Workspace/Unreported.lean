import CrateYard.Proofs.Workspace.Edges

/-! Edges that are lost without a report. A node that is not the last of its package has its edges replaced, and one
whose id no listed package has is passed over; every other edge is in the graph or is accounted for by an omission, of
the edge or of the package that it leaves. -/

namespace CrateYard.Workspace

variable {t : FileTree} {doc : Metadata} {fallback : Path} {w : Workspace} {id source needed : String}

/-- The edge is in the graph, or it is reported, or its package is. -/
def Accounted (w : Workspace) (source needed : PackageId) : Prop :=
  needed ∈ w.graph.successors source ∨ (∃ cause, .dependency source needed cause ∈ w.omitted) ∨
    ∃ cause, .package source cause ∈ w.omitted

/-! Reports of packages. -/

/-- Of each id, as many packages are kept and left out as are listed. -/
theorem count_keptAfter_add_count_leftAfter (t : FileTree) (before raws : List Metadata.Package) (id : String) :
    ((keptAfter t before raws).map (·.id)).count id + ((leftAfter t before raws).map (·.2.id)).count id =
      (raws.map (·.id)).count id := by
  have hperm := (List.filter_append_perm (isKept t) (placed before raws)).map (·.2.id)
  have hall : (placed before raws).map (·.2.id) = raws.map (·.id) := by
    calc
      (placed before raws).map (·.2.id) = ((placed before raws).map Prod.snd).map (·.id) := (List.map_map ..).symm
      _ = raws.map (·.id) := by rw [map_snd_placed]
  rw [List.map_append, hall] at hperm
  rw [keptAfter, leftAfter, List.map_map, ← List.count_append]
  exact hperm.count_eq id

theorem reported_iff_of_forall₂ {items : List (List Metadata.Package × Metadata.Package)} {omitted : List Omission}
    (h : List.Forall₂ (Reports t) items omitted) :
    (∃ cause, .package ⟨id⟩ cause ∈ omitted) ↔ id ∈ items.map (·.2.id) := by
  induction h with
  | nil => simp
  | cons hr _ ih =>
    rw [List.map_cons, List.mem_cons, ← ih]
    cases hr with
    | repeated => simp [exists_or]
    | missing => simp [exists_or, eq_comm]

theorem contains_iff_kept (h : load t doc fallback = .ok w) :
    w.graph.contains ⟨id⟩ = true ↔ id ∈ (keptAfter t [] doc.packages).map (·.id) := by
  rw [contains_of_load h, forall₂_ids (accounts_packagesOf t doc).kept]
  exact List.mem_map_of_injective fun a b hab => PackageId.mk.inj hab

theorem reported_iff_left (h : load t doc fallback = .ok w) :
    (∃ cause, .package ⟨id⟩ cause ∈ w.omitted) ↔ id ∈ (leftAfter t [] doc.packages).map (·.2.id) := by
  rw [← reported_iff_of_forall₂ (accounts_packagesOf t doc).left, omitted_of_load h]
  refine exists_congr fun cause => ?_
  rw [List.mem_append, List.mem_filter, List.mem_flatMap]
  constructor
  · rintro (ho | ⟨n, -, ho⟩)
    · exact ⟨ho, rfl⟩
    · obtain ⟨-, e, -, -, he⟩ := mem_lostEdges_iff.1 ho
      cases he
  · exact fun ho => .inl ho.1

theorem reported_iff (h : load t doc fallback = .ok w) :
    (∃ cause, .package ⟨id⟩ cause ∈ w.omitted) ↔ id ∈ doc.packages.map (·.id) ∧
      (w.graph.contains ⟨id⟩ = true → 2 ≤ (doc.packages.map (·.id)).count id) := by
  have hcount := count_keptAfter_add_count_leftAfter t [] doc.packages id
  have honce : ((keptAfter t [] doc.packages).map (·.id)).count id ≤ 1 := by
    have hnodup := (accounts_packagesOf t doc).nodup_ids
    rw [forall₂_ids (accounts_packagesOf t doc).kept] at hnodup
    exact List.nodup_iff_count_le_one.1 hnodup.of_map id
  rw [reported_iff_left h, contains_iff_kept h, ← List.count_pos_iff, ← List.count_pos_iff, ← List.count_pos_iff]
  omega

/-! Reports of edges. -/

theorem mem_successors_of_load (h : load t doc fallback = .ok w) :
    ⟨needed⟩ ∈ w.graph.successors ⟨source⟩ ↔ w.graph.contains ⟨source⟩ = true ∧ w.graph.contains ⟨needed⟩ = true ∧
      needed ∈ (listedEdges doc ⟨source⟩).map Prod.fst := by
  rw [Graph.successors]
  by_cases hs : w.graph.contains ⟨source⟩ = true
  · have hids := ids_of_forall₂
      (loadEdges_forall₂ (accounts_packagesOf t doc).nodup_ids [] (listedEdges doc ⟨source⟩))
    rw [edges?_of_load h hs, Option.getD_some, hids, List.mem_map_of_injective fun a b hab => PackageId.mk.inj hab,
      mem_keys_firstsBy]
    simp only [isSome_libraryNameOf?_of_load h, List.mem_map, List.mem_filter, List.not_mem_nil, not_false_eq_true,
      and_true]
    constructor
    · rintro ⟨e, ⟨he, hn⟩, rfl⟩
      exact ⟨hs, hn, e, he, rfl⟩
    · rintro ⟨-, hn, e, he, rfl⟩
      exact ⟨e, ⟨he, hn⟩, rfl⟩
  · rw [Graph.edges?_eq_none_iff.2 fun hi => hs (Graph.contains_iff.2 hi)]
    simp [hs]

theorem dependency_reported_iff (h : load t doc fallback = .ok w) {node : Metadata.Node} (hn : node ∈ nodesOf doc)
    {e : String × Option String} (he : e ∈ node.edges) :
    (∃ cause, .dependency ⟨node.id⟩ ⟨e.1⟩ cause ∈ w.omitted) ↔
      w.graph.contains ⟨node.id⟩ = true ∧ w.graph.contains ⟨e.1⟩ = false := by
  rw [omitted_of_load h]
  constructor
  · rintro ⟨cause, ho⟩
    rcases List.mem_append.1 ho with hloss | hedge
    · cases isDependency_of_mem_lossesOf hloss
    · obtain ⟨m, -, hm⟩ := List.mem_flatMap.1 hedge
      obtain ⟨hsource, e', -, hneeded, heq⟩ := mem_lostEdges_iff.1 hm
      injection heq with hfrom hto
      rw [← hfrom, ← hto]
      exact ⟨hsource, hneeded⟩
  · rintro ⟨hsource, hneeded⟩
    refine ⟨.unlisted, List.mem_append_right _ (List.mem_flatMap.2 ⟨node, hn, ?_⟩)⟩
    exact mem_lostEdges_iff.2 ⟨hsource, e, he, hneeded, rfl⟩

/-- An edge of a node is accounted for if the id of the node is listed, and, where both its ends are kept, if that id is
listed a second time or the last node with it has an edge to the same package. The other edges are lost. -/
theorem accounted_iff (h : load t doc fallback = .ok w) {node : Metadata.Node} (hn : node ∈ nodesOf doc)
    {e : String × Option String} (he : e ∈ node.edges) :
    Accounted w ⟨node.id⟩ ⟨e.1⟩ ↔ node.id ∈ doc.packages.map (·.id) ∧
      (w.graph.contains ⟨node.id⟩ = true → w.graph.contains ⟨e.1⟩ = true →
        2 ≤ (doc.packages.map (·.id)).count node.id ∨ e.1 ∈ (listedEdges doc ⟨node.id⟩).map Prod.fst) := by
  rw [Accounted, mem_successors_of_load h, dependency_reported_iff h hn he, reported_iff h]
  have hlisted : w.graph.contains ⟨node.id⟩ = true → node.id ∈ doc.packages.map (·.id) := by
    intro hkept
    rw [contains_iff_kept h, ← List.count_pos_iff] at hkept
    rw [← List.count_pos_iff, ← count_keptAfter_add_count_leftAfter t [] doc.packages node.id]
    exact Nat.add_pos_left hkept _
  by_cases hsource : w.graph.contains ⟨node.id⟩ = true
  · by_cases hneeded : w.graph.contains ⟨e.1⟩ = true
    · simp [hsource, hneeded, hlisted hsource, or_comm]
    · simp [hsource, hneeded, hlisted hsource]
  · simp [hsource]

/-- Neither the edge of the node that was replaced nor that of the stray one is in the graph or reported. -/
theorem accounted_iff_rewired :
    (replacing ∈ nodesOf rewired ∧ ("gone 1.0.0", some "gone") ∈ replacing.edges) ∧
    (replaced ∈ nodesOf rewired ∧ ("aux 1.0.0", none) ∈ replaced.edges) ∧
    (stray ∈ nodesOf rewired ∧ ("app 0.1.0", none) ∈ stray.edges) ∧
    ∃ w, load oneFile rewired ⟨"/"⟩ = .ok w ∧ Accounted w ⟨"app 0.1.0"⟩ ⟨"gone 1.0.0"⟩ ∧
      ¬ Accounted w ⟨"app 0.1.0"⟩ ⟨"aux 1.0.0"⟩ ∧ ¬ Accounted w ⟨"ghost 1.0.0"⟩ ⟨"app 0.1.0"⟩ := by
  obtain ⟨w, hw⟩ : ∃ w, load oneFile rewired ⟨"/"⟩ = .ok w := ⟨_, rfl⟩
  have happ : w.graph.contains ⟨"app 0.1.0"⟩ = true := by rw [contains_rewired hw]; decide
  have haux : w.graph.contains ⟨"aux 1.0.0"⟩ = true := by rw [contains_rewired hw]; decide
  have hgone : w.graph.contains ⟨"gone 1.0.0"⟩ = false := by rw [contains_rewired hw]; decide
  have hreplaced : replaced ∈ nodesOf rewired := by simp [nodesOf, rewired]
  have hreplacing : replacing ∈ nodesOf rewired := by simp [nodesOf, rewired]
  have hstray : stray ∈ nodesOf rewired := by simp [nodesOf, rewired]
  have hout : ("gone 1.0.0", some "gone") ∈ replacing.edges := by decide
  have hlost : ("aux 1.0.0", none) ∈ replaced.edges := by decide
  have hghost : ("app 0.1.0", none) ∈ stray.edges := by decide
  refine ⟨⟨hreplacing, hout⟩, ⟨hreplaced, hlost⟩, ⟨hstray, hghost⟩, w, hw, ?_, ?_, ?_⟩
  · refine (accounted_iff hw hreplacing hout).2 ⟨by decide, fun _ hkept => ?_⟩
    rw [hgone] at hkept
    cases hkept
  · intro haccounted
    obtain ⟨-, hlast⟩ := (accounted_iff hw hreplaced hlost).1 haccounted
    rcases hlast happ haux with htwice | hlisted
    · exact absurd htwice (by decide)
    · exact absurd hlisted (by decide)
  · intro haccounted
    exact absurd ((accounted_iff hw hstray hghost).1 haccounted).1 (by decide)

end CrateYard.Workspace
