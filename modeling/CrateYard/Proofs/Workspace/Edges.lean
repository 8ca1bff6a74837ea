import CrateYard.Proofs.Workspace.Listing

/-! The edges of a document. Of several nodes of a package the last counts, and of its edges those to kept packages, the
first to each; a graph leaves out none of these. Every edge of any node of a kept package that leads to no kept package
is reported, each time it is listed. -/

namespace CrateYard.Workspace

variable {t : FileTree} {doc : Metadata} {fallback : Path} {w : Workspace} {packages : List Package} {p : Package}
  {nodes : List Metadata.Node} {id : String}

/-- The edges that a document lists for a package: those of the last node with its id. -/
def listedEdges (doc : Metadata) (id : PackageId) : List (String × Option String) :=
  ((nodesOf doc).filter fun n => n.id = id.text).getLast?.elim [] Metadata.Node.edges

/-- `d` is what is kept of a listed edge. It has a name where the listed one has, unless it is the library's own. -/
structure EdgeOf (packages : List Package) (listed : String × Option String) (d : Dependency) : Prop where
  package : d.package = ⟨listed.1⟩
  rename : ∀ p ∈ packages, p.id = d.package →
    ∀ name, d.rename = some name ↔ listed.2 = some name ∧ name ≠ p.libraryName

/-- The omissions of the edges of a node, if its package is in the graph: of those that lead out of the graph. -/
def lostEdges (g : Graph) (node : Metadata.Node) : List Omission :=
  if g.contains ⟨node.id⟩ then
    (node.edges.filter fun e => !g.contains ⟨e.1⟩).map fun e => .dependency ⟨node.id⟩ ⟨e.1⟩ .unlisted
  else []

/-! Libraries by the ids of their packages. -/

theorem text_eq_iff {x : PackageId} : x.text = id ↔ x = ⟨id⟩ := by
  cases x
  simp

theorem isSome_libraryNameOf?_iff : (libraryNameOf? packages id).isSome = true ↔ ⟨id⟩ ∈ packages.map (·.id) := by
  rw [libraryNameOf?, Option.isSome_map, List.find?_isSome, List.mem_map]
  simp only [decide_eq_true_eq, text_eq_iff]

theorem libraryNameOf?_eq (h : (packages.map (·.id)).Nodup) (hp : p ∈ packages) (hid : p.id = ⟨id⟩) :
    libraryNameOf? packages id = some p.libraryName := by
  have hmem : ⟨id⟩ ∈ packages.map (·.id) := hid ▸ List.mem_map_of_mem hp
  obtain ⟨name, hname⟩ := Option.isSome_iff_exists.1 (isSome_libraryNameOf?_iff.2 hmem)
  obtain ⟨q, hq, rfl⟩ := Option.map_eq_some_iff.1 hname
  have hqid : q.id = ⟨id⟩ := text_eq_iff.1 (by simpa using List.find?_some hq)
  rw [hname, List.inj_on_of_nodup_map h (List.mem_of_find?_eq_some hq) hp (hqid.trans hid.symm)]

/-! The edges of one node. -/

theorem edgeOf_of_libraryNameOf? (h : (packages.map (·.id)).Nodup) {name : Option String} {lib : String}
    (hlib : libraryNameOf? packages id = some lib) :
    EdgeOf packages (id, name) ⟨⟨id⟩, name.filter (· ≠ lib)⟩ := by
  refine ⟨rfl, fun p hp hid used => ?_⟩
  obtain rfl : p.libraryName = lib := Option.some_inj.1 ((libraryNameOf?_eq h hp hid).symm.trans hlib)
  simp [Option.filter_eq_some_iff]

theorem loadEdges_forall₂ (h : (packages.map (·.id)).Nodup) (seen : List String)
    (listed : List (String × Option String)) :
    List.Forall₂ (EdgeOf packages)
      (firstsBy Prod.fst seen (listed.filter fun e => (libraryNameOf? packages e.1).isSome))
      (loadEdges packages seen listed) := by
  induction listed generalizing seen with
  | nil => exact .nil
  | cons e rest ih =>
    obtain ⟨id, name⟩ := e
    rw [loadEdges, List.filter_cons]
    cases hlib : libraryNameOf? packages id with
    | none => exact ih seen
    | some lib =>
      simp only [Option.isSome_some, if_true, firstsBy, List.contains_iff_mem]
      split
      · exact ih seen
      · exact .cons (edgeOf_of_libraryNameOf? h hlib) (ih (id :: seen))

theorem ids_of_forall₂ {listed : List (String × Option String)} {es : List Dependency}
    (h : List.Forall₂ (EdgeOf packages) listed es) : es.map (·.package) = (listed.map Prod.fst).map PackageId.mk := by
  induction h with
  | nil => rfl
  | cons he _ ih => rw [List.map_cons, he.package, ih, List.map_cons, List.map_cons]

theorem keepEdges_loadEdges (h : (packages.map (·.id)).Nodup) (listed : List (String × Option String)) :
    Graph.keepEdges (packages.map (·.id)) (loadEdges packages [] listed) = loadEdges packages [] listed := by
  have hids := ids_of_forall₂ (loadEdges_forall₂ h [] listed)
  refine Graph.keepEdges_of_nodup ?_ fun d hd => ?_
  · rw [hids]
    exact nodup_keys_firstsBy.map fun a b hab => PackageId.mk.inj hab
  · have hd' := List.mem_map_of_mem (f := (·.package)) hd
    rw [hids] at hd'
    obtain ⟨id, hid, hdid⟩ := List.mem_map.1 hd'
    obtain ⟨e, he, rfl⟩ := List.mem_map.1 (mem_keys_firstsBy.1 hid).1
    rw [← hdid]
    exact isSome_libraryNameOf?_iff.1 (List.mem_filter.1 he).2

/-! The edges of all nodes. -/

/-- The last node of a package that is there gives its edges. -/
theorem edgesOf_of_mem {x : PackageId} (hx : x ∈ packages.map (·.id)) :
    edgesOf packages (nodesOf doc) x = loadEdges packages [] (listedEdges doc x) := by
  have hknown : ((nodesOf doc).filter fun n => n.id = x.text) =
      (knownNodes packages (nodesOf doc)).filter fun n => n.id = x.text := by
    rw [knownNodes, List.filter_filter]
    refine List.filter_congr fun n _ => ?_
    by_cases hn : n.id = x.text
    · simp [hn, isSome_libraryNameOf?_iff.2 hx]
    · simp [hn]
  rw [listedEdges, hknown, edgesOf, ← List.getLast?_filter]
  cases ((knownNodes packages (nodesOf doc)).filter fun n => n.id = x.text).getLast? with
  | none => rfl
  | some n => rfl

theorem mem_lostEdges_iff {g : Graph} {node : Metadata.Node} {o : Omission} :
    o ∈ lostEdges g node ↔ g.contains ⟨node.id⟩ = true ∧
      ∃ e ∈ node.edges, g.contains ⟨e.1⟩ = false ∧ .dependency ⟨node.id⟩ ⟨e.1⟩ .unlisted = o := by
  rw [lostEdges]
  split
  · next hg => simp [hg, and_assoc]
  · next hg => simp [hg]

/-! An accepted document. -/

theorem isDependency_of_mem_lossesOf {o : Omission} (ho : o ∈ lossesOf t doc) : o.isDependency = false := by
  rw [← Bool.not_eq_true]
  intro hd
  have hnone : o ∈ (lossesOf t doc).filter Omission.isDependency := List.mem_filter.2 ⟨ho, hd⟩
  rw [lossesOf, filter_isDependency_loadPackages] at hnone
  cases hnone

theorem contains_of_load (h : load t doc fallback = .ok w) (x : PackageId) :
    w.graph.contains x = true ↔ x ∈ (packagesOf t doc).map (·.id) := by
  rw [Graph.contains_iff, ← packages_of_load h, Graph.packages, List.map_map]
  rfl

theorem isSome_libraryNameOf?_of_load (h : load t doc fallback = .ok w) (id : String) :
    (libraryNameOf? (packagesOf t doc) id).isSome = w.graph.contains ⟨id⟩ :=
  Bool.eq_iff_iff.2 (isSome_libraryNameOf?_iff.trans (contains_of_load h _).symm)

theorem edges?_of_load (h : load t doc fallback = .ok w) {x : PackageId} (hx : w.graph.contains x = true) :
    w.graph.edges? x = some (loadEdges (packagesOf t doc) [] (listedEdges doc x)) := by
  have hmem := (contains_of_load h x).1 hx
  obtain ⟨⟨root, hgraph⟩, -⟩ := of_load h
  rw [hgraph, Graph.edges?_ofPackages hmem, edgesOf_of_mem hmem,
    keepEdges_loadEdges (accounts_packagesOf t doc).nodup_ids]

theorem omitted_of_load (h : load t doc fallback = .ok w) :
    w.omitted = lossesOf t doc ++ (nodesOf doc).flatMap (lostEdges w.graph) := by
  rw [(of_load h).2]
  congr 1
  induction nodesOf doc with
  | nil => rfl
  | cons n rest ih =>
    rw [List.flatMap_cons, lostEdges, ← ih, ← isSome_libraryNameOf?_of_load h, knownNodes, List.filter_cons]
    split
    · rw [List.flatMap_cons, edgeOmissions]
      simp only [← isSome_libraryNameOf?_of_load h, Option.not_isSome]
      rfl
    · rfl

def replaced : Metadata.Node :=
  ⟨"app 0.1.0", ["aux 1.0.0"], none⟩

def replacing : Metadata.Node :=
  ⟨"app 0.1.0", [], some [⟨"other", "lib 1.0.0"⟩, ⟨"lib", "lib 1.0.0"⟩, ⟨"gone", "gone 1.0.0"⟩]⟩

def stray : Metadata.Node :=
  ⟨"ghost 1.0.0", ["app 0.1.0"], none⟩

def rewired : Metadata where
  version := some 1
  packages :=
    [{ atRoot with targets := [] }, { nowhere with manifestPath := "/Cargo.toml" },
      { nowhere with id := "aux 1.0.0", name := "aux", manifestPath := "/Cargo.toml" }]
  members := some ["app 0.1.0"]
  resolve := some [replaced, replacing, stray]
  workspaceRoot := none

theorem loadPackages_rewired :
    ∃ app lib aux, packagesOf oneFile rewired = [app, lib, aux] ∧ app.id = ⟨"app 0.1.0"⟩ ∧ lib.id = ⟨"lib 1.0.0"⟩ ∧
      aux.id = ⟨"aux 1.0.0"⟩ ∧ lib.libraryName = "lib" ∧ lossesOf oneFile rewired = [] := by
  have hroot : rootOf oneFile atRoot.manifestPath = .ok ⟨"/"⟩ :=
    directory?_eq_some_iff.1 (directory?_root oneFile rfl)
  rw [show atRoot.manifestPath = "/Cargo.toml" from rfl] at hroot
  simp only [packagesOf, lossesOf, rewired, loadPackages, loadPackage, atRoot, nowhere, hroot]
  exact ⟨_, _, _, rfl, rfl, rfl, rfl, by decide, rfl⟩

theorem contains_rewired (h : load oneFile rewired fallback = .ok w) :
    w.graph.contains ⟨id⟩ = decide (id ∈ ["app 0.1.0", "lib 1.0.0", "aux 1.0.0"]) := by
  obtain ⟨app, lib, aux, hpackages, happ, hlib, haux, -, -⟩ := loadPackages_rewired
  rw [Bool.eq_iff_iff, contains_of_load h, hpackages]
  simp [happ, hlib, haux]

end CrateYard.Workspace
