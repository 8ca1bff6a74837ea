import CrateYard.Table
import CrateYard.Proofs.Workspace.Graph

/-! A graph by places. Its packages stand in a row, a table has the place of each package by its id, and another has the
edges by the id of the package that they start from. The three are made one after the other: row and places in one pass
over the packages, which skips an id that has a place already, then the edges between ids that have one. So every place
is in the row and leads to the one package with its id, and the answers are those of the graph that keeps each package
together with its edges. -/

namespace CrateYard

structure Roster where
  row : List Package
  places : Table PackageId Nat
  edges : Table PackageId (List Dependency)

namespace Roster

/-- Why a package is not found. -/
inductive Miss where
  | unknown (id : PackageId)
  /-- The place of the id is not in the row. -/
  | outOfRow (place : Nat)
deriving DecidableEq, Repr

def empty : Roster := ⟨[], .empty, .empty⟩

/-- The package gets the next place, unless there is one for its id. -/
def enter (r : Roster) (p : Package) : Roster :=
  if (r.places.get? p.id).isSome then r
  else { r with row := r.row ++ [p], places := r.places.set p.id r.row.length }

/-- The edges from ids that have a place to others that have one, the first to each. -/
def connect (r : Roster) (edges : Table PackageId (List Dependency)) : Roster :=
  { r with edges := ⟨(edges.entries.filter fun e => (r.places.get? e.1).isSome).map fun e =>
      (e.1, Graph.firstEdgesFrom [] (e.2.filter fun d => (r.places.get? d.package).isSome))⟩ }

def ofPackages (packages : List Package) (edges : Table PackageId (List Dependency)) : Roster :=
  (packages.foldl enter empty).connect edges

def contains (r : Roster) (id : PackageId) : Bool :=
  (r.places.get? id).isSome

def package (r : Roster) (id : PackageId) : Except Miss Package :=
  match r.places.get? id with
  | none => .error (.unknown id)
  | some place =>
    match r.row[place]? with
    | none => .error (.outOfRow place)
    | some p => .ok p

def dependencies (r : Roster) (id : PackageId) : Except Miss (List Dependency) :=
  match r.package id with
  | .error e => .error e
  | .ok _ => .ok ((r.edges.get? id).getD [])

variable {r : Roster} {packages : List Package} {edges : Table PackageId (List Dependency)} {id : PackageId}

/-! The pass over the packages. -/

/-- The place of an id is that of the package in the row that has it, and no other package has it. -/
structure Coherent (r : Roster) : Prop where
  nodup : (r.row.map (·.id)).Nodup
  places : ∀ id, r.places.get? id = r.row.findIdx? fun p => p.id = id

theorem coherent_empty : Coherent empty := by
  constructor
  · simp [empty]
  · intro id
    simp [empty, Table.get?, Table.empty]

theorem Coherent.contains_iff (h : r.Coherent) : r.contains id = true ↔ id ∈ r.row.map (·.id) := by
  rw [contains, h.places]
  simp

theorem enter_of_contains {p : Package} (hp : r.contains p.id = true) : r.enter p = r := by
  rw [contains] at hp
  rw [enter, if_pos hp]

theorem enter_of_not_contains {p : Package} (hp : ¬ r.contains p.id = true) :
    r.enter p = { r with row := r.row ++ [p], places := r.places.set p.id r.row.length } := by
  rw [contains] at hp
  rw [enter, if_neg hp]

theorem contains_enter {p : Package} : (r.enter p).contains id = true ↔ id = p.id ∨ r.contains id = true := by
  by_cases hp : r.contains p.id = true
  · rw [enter_of_contains hp]
    constructor
    · exact .inr
    · rintro (rfl | hid)
      · exact hp
      · exact hid
  · rw [enter_of_not_contains hp, contains, Table.get?_set, contains]
    by_cases hid : id = p.id <;> simp [hid]

theorem Coherent.enter (h : r.Coherent) (p : Package) : (r.enter p).Coherent := by
  by_cases hp : r.contains p.id = true
  · rw [enter_of_contains hp]
    exact h
  · have hnew : ∀ q ∈ r.row, q.id ≠ p.id := by
      intro q hq he
      apply hp
      rw [h.contains_iff, ← he]
      exact List.mem_map_of_mem hq
    rw [enter_of_not_contains hp]
    constructor
    · simpa [List.nodup_append, h.nodup] using hnew
    · intro id
      rw [Table.get?_set, h.places, List.findIdx?_append]
      by_cases hid : id = p.id
      · -- no package of the row has the id, so the new one is found, behind all of them
        subst hid
        have hnone : r.row.findIdx? (fun q => q.id = p.id) = none := by
          rw [List.findIdx?_eq_none_iff]
          intro q hq
          simp [hnew q hq]
        simp [hnone]
      · simp [hid, Ne.symm hid]

theorem Coherent.enterAll (h : r.Coherent) (packages : List Package) : (packages.foldl Roster.enter r).Coherent := by
  induction packages generalizing r with
  | nil => exact h
  | cons p rest ih => exact ih (h.enter p)

theorem row_enterAll {seen : List PackageId} (hseen : ∀ id, id ∈ seen ↔ r.contains id = true) :
    (packages.foldl enter r).row = r.row ++ firstsBy (·.id) seen packages := by
  induction packages generalizing r seen with
  | nil => simp [firstsBy]
  | cons p rest ih =>
    rw [List.foldl_cons, firstsBy]
    by_cases hp : p.id ∈ seen
    · rw [if_pos hp, enter_of_contains ((hseen _).1 hp)]
      exact ih hseen
    · have hseen' : ∀ id, id ∈ p.id :: seen ↔ (r.enter p).contains id = true := by
        intro id
        rw [contains_enter, List.mem_cons, hseen]
      have hrow : (r.enter p).row = r.row ++ [p] := by
        rw [enter_of_not_contains fun hc => hp ((hseen _).2 hc)]
      rw [if_neg hp, ih hseen', hrow, List.append_assoc, List.singleton_append]

/-! The pass over the edges. -/

/-- What is kept of the edges that are listed for a package. -/
def kept (r : Roster) (listed : List Dependency) : List Dependency :=
  Graph.firstEdgesFrom [] (listed.filter fun d => r.contains d.package)

theorem kept_eq (r : Roster) (listed : List Dependency) :
    r.kept listed = firsts (·.package) (listed.filter fun d => r.contains d.package) := by
  rw [kept, Graph.firstEdgesFrom_eq, firsts_eq_firstsBy]

theorem nodup_kept (r : Roster) (listed : List Dependency) : ((r.kept listed).map (·.package)).Nodup := by
  rw [kept, Graph.firstEdgesFrom_eq]
  exact nodup_keys_firstsBy

theorem contains_of_mem_kept {listed : List Dependency} {d : Dependency} (hd : d ∈ r.kept listed) :
    r.contains d.package = true := by
  rw [kept, Graph.firstEdgesFrom_eq] at hd
  have hkey := (mem_keys_firstsBy.1 (List.mem_map_of_mem (f := Dependency.package) hd)).1
  obtain ⟨d', hd', he⟩ := List.mem_map.1 hkey
  rw [← he]
  exact (List.mem_filter.1 hd').2

theorem entries_connect (r : Roster) (edges : Table PackageId (List Dependency)) :
    (r.connect edges).edges.entries =
      (edges.entries.filter fun e => r.contains e.1).map fun e => (e.1, r.kept e.2) := rfl

theorem get?_connect (r : Roster) (edges : Table PackageId (List Dependency)) (hid : r.contains id = true) :
    (r.connect edges).edges.get? id = (edges.get? id).map r.kept := by
  rw [Table.get?, Table.get?, entries_connect]
  induction edges.entries with
  | nil => rfl
  | cons e rest ih =>
    by_cases he : e.1 = id
    · simp [he, hid]
    · by_cases hk : r.contains e.1 = true
      · simpa [hk, he] using ih
      · simpa [hk, he] using ih

theorem Coherent.connect (h : r.Coherent) (edges : Table PackageId (List Dependency)) : (r.connect edges).Coherent :=
  ⟨h.nodup, h.places⟩

/-! What a roster answers. -/

theorem Coherent.exists_of_place (h : r.Coherent) {place : Nat} (hplace : r.places.get? id = some place) :
    ∃ p, r.row[place]? = some p ∧ p.id = id := by
  rw [h.places, List.findIdx?_eq_some_iff_getElem] at hplace
  obtain ⟨hlt, hid, -⟩ := hplace
  exact ⟨r.row[place], List.getElem?_eq_getElem hlt, by simpa using hid⟩

theorem package_of_not_contains (hid : ¬ r.contains id = true) : r.package id = .error (.unknown id) := by
  have hnone : r.places.get? id = none := by simpa [contains] using hid
  rw [package, hnone]

theorem Coherent.exists_package (h : r.Coherent) (hid : r.contains id = true) :
    ∃ p ∈ r.row, r.package id = .ok p ∧ p.id = id := by
  obtain ⟨place, hplace⟩ := Option.isSome_iff_exists.1 hid
  obtain ⟨p, hp, hpid⟩ := h.exists_of_place hplace
  exact ⟨p, List.mem_of_getElem? hp, by simp [package, hplace, hp], hpid⟩

theorem Coherent.package_eq_ok_iff (h : r.Coherent) {p : Package} :
    r.package id = .ok p ↔ p ∈ r.row ∧ p.id = id := by
  constructor
  · intro hp
    by_cases hid : r.contains id = true
    · obtain ⟨q, hq, hfound, hqid⟩ := h.exists_package hid
      rw [hp] at hfound
      cases hfound
      exact ⟨hq, hqid⟩
    · rw [package_of_not_contains hid] at hp
      cases hp
  · rintro ⟨hp, rfl⟩
    obtain ⟨q, hq, hfound, hqid⟩ := h.exists_package (h.contains_iff.2 (List.mem_map_of_mem hp))
    rw [hfound, List.inj_on_of_nodup_map h.nodup hq hp hqid]

theorem Coherent.package_eq_error_iff (h : r.Coherent) {e : Miss} :
    r.package id = .error e ↔ e = .unknown id ∧ r.contains id = false := by
  by_cases hid : r.contains id = true
  · obtain ⟨p, -, hfound, -⟩ := h.exists_package hid
    simp [hfound, hid]
  · rw [package_of_not_contains hid]
    simp only [Bool.not_eq_true] at hid
    simp [hid, eq_comm]

theorem Coherent.dependencies_eq (h : r.Coherent) (edges : Table PackageId (List Dependency)) :
    (r.connect edges).dependencies id =
      if r.contains id = true then .ok (r.kept ((edges.get? id).getD [])) else .error (.unknown id) := by
  by_cases hid : r.contains id = true
  · obtain ⟨p, -, hp, -⟩ : ∃ p ∈ (r.connect edges).row, (r.connect edges).package id = .ok p ∧ p.id = id :=
      (h.connect edges).exists_package hid
    have hnil : r.kept [] = [] := rfl
    rw [dependencies, hp, if_pos hid, get?_connect r edges hid]
    cases edges.get? id <;> simp [hnil]
  · rw [dependencies, package_of_not_contains (r := r.connect edges) hid, if_neg hid]

/-! The roster of some packages and edges. -/

theorem coherent_ofPackages (packages : List Package) (edges : Table PackageId (List Dependency)) :
    (ofPackages packages edges).Coherent :=
  (coherent_empty.enterAll packages).connect edges

theorem row_ofPackages (packages : List Package) (edges : Table PackageId (List Dependency)) :
    (ofPackages packages edges).row = firsts (·.id) packages := by
  have hseen : ∀ id, id ∈ ([] : List PackageId) ↔ empty.contains id = true := by
    intro id
    simp [empty, contains, Table.get?, Table.empty]
  rw [firsts_eq_firstsBy]
  exact row_enterAll hseen

theorem contains_ofPackages : (ofPackages packages edges).contains id = true ↔ ∃ p ∈ packages, p.id = id := by
  rw [(coherent_ofPackages packages edges).contains_iff, row_ofPackages, firsts_eq_firstsBy, mem_keys_firstsBy]
  simp

theorem dependencies_ofPackages :
    (ofPackages packages edges).dependencies id =
      if (ofPackages packages edges).contains id = true then
        .ok ((ofPackages packages edges).kept ((edges.get? id).getD [])) else .error (.unknown id) :=
  (coherent_empty.enterAll packages).dependencies_eq edges

/-- The parts of a roster fit each other and what it was made from. -/
structure Sound (r : Roster) (packages : List Package) (edges : Table PackageId (List Dependency)) : Prop where
  /-- The row has the first package with each id, in the order in which they were given. -/
  row : r.row = firsts (·.id) packages
  unique : (r.row.map (·.id)).Nodup
  contains : ∀ id, r.contains id = true ↔ ∃ p ∈ packages, p.id = id
  /-- No place is outside of the row. -/
  place : ∀ id place, r.places.get? id = some place → ∃ p, r.row[place]? = some p ∧ p.id = id
  found : ∀ id p, r.package id = .ok p ↔ p ∈ r.row ∧ p.id = id
  missing : ∀ id e, r.package id = .error e ↔ e = .unknown id ∧ r.contains id = false
  /-- Of the edges that are listed for a package, the first to each known package is kept, with the name it has there. -/
  dependencies : ∀ id, r.contains id = true →
    r.dependencies id = .ok (firsts (·.package) (((edges.get? id).getD []).filter fun d => r.contains d.package))
  strange : ∀ id, r.contains id = false → r.dependencies id = .error (.unknown id)
  /-- Every edge starts and ends at a package. -/
  closed : ∀ e ∈ r.edges.entries, r.contains e.1 = true ∧ ∀ d ∈ e.2, r.contains d.package = true
  /-- From one package to another there is one edge at most. -/
  single : ∀ e ∈ r.edges.entries, (e.2.map (·.package)).Nodup
  /-- An id that has its edges in one place among those given has them in one place here. -/
  keys : r.edges.keys.Sublist edges.keys

/-- The same answers, of places in a row and of packages with their edges. -/
structure Matches (r : Roster) (g : Graph) : Prop where
  packages : g.packages = r.row
  contains : ∀ id, g.contains id = r.contains id
  package : ∀ id, g.package? id = (r.package id).toOption
  edges : ∀ id, g.edges? id = (r.dependencies id).toOption

theorem sound_ofPackages (packages : List Package) (edges : Table PackageId (List Dependency)) :
    (ofPackages packages edges).Sound packages edges where
  row := row_ofPackages packages edges
  unique := (coherent_ofPackages packages edges).nodup
  contains := fun _ => contains_ofPackages
  place := fun _ _ => (coherent_ofPackages packages edges).exists_of_place
  found := fun _ _ => (coherent_ofPackages packages edges).package_eq_ok_iff
  missing := fun _ _ => (coherent_ofPackages packages edges).package_eq_error_iff
  dependencies := by
    intro id hid
    rw [dependencies_ofPackages, if_pos hid, kept_eq]
  strange := by
    intro id hid
    rw [dependencies_ofPackages, if_neg (by simp [hid])]
  closed := by
    intro e he
    rw [ofPackages, entries_connect] at he
    obtain ⟨e', he', rfl⟩ := List.mem_map.1 he
    exact ⟨(List.mem_filter.1 he').2, fun d hd => contains_of_mem_kept hd⟩
  single := by
    intro e he
    rw [ofPackages, entries_connect] at he
    obtain ⟨e', -, rfl⟩ := List.mem_map.1 he
    exact nodup_kept _ _
  keys := by
    rw [Table.keys, ofPackages, entries_connect, List.map_map]
    exact (List.filter_sublist (l := edges.entries)).map Prod.fst

theorem toOption_package_eq_some_iff {p : Package} : (r.package id).toOption = some p ↔ r.package id = .ok p := by
  cases r.package id <;> simp [Except.toOption]

theorem kept_ofPackages (listed : List Dependency) :
    (ofPackages packages edges).kept listed = Graph.keepEdges (packages.map (·.id)) listed := by
  rw [kept, Graph.keepEdges]
  congr 1
  apply List.filter_congr
  intro d _
  rw [Bool.eq_iff_iff, contains_ofPackages]
  simp

theorem matches_ofPackages (root : Path) (packages : List Package) (edges : Table PackageId (List Dependency)) :
    (ofPackages packages edges).Matches (Graph.ofPackages root packages fun id => (edges.get? id).getD []) := by
  have hpackages : (Graph.ofPackages root packages fun id => (edges.get? id).getD []).packages =
      (ofPackages packages edges).row := by
    rw [Graph.packages_ofPackages, row_ofPackages, firsts_eq_firstsBy]
  have hcontains : ∀ id, (Graph.ofPackages root packages fun id => (edges.get? id).getD []).contains id =
      (ofPackages packages edges).contains id := by
    intro id
    rw [Bool.eq_iff_iff, Graph.contains_iff, Graph.mem_ids_ofPackages, contains_ofPackages]
    simp
  refine ⟨hpackages, hcontains, ?_, ?_⟩
  · intro id
    apply Option.ext
    intro p
    rw [toOption_package_eq_some_iff, (coherent_ofPackages packages edges).package_eq_ok_iff, ← hpackages,
      Graph.package?_eq_some_iff Graph.nodup_ids_ofPackages]
  · intro id
    rw [dependencies_ofPackages]
    by_cases hid : (ofPackages packages edges).contains id = true
    · have hmem : id ∈ packages.map (·.id) := by
        rw [← hcontains, Graph.contains_iff, Graph.mem_ids_ofPackages] at hid
        exact hid
      rw [if_pos hid, Graph.edges?_ofPackages hmem, kept_ofPackages]
      rfl
    · have hnone : id ∉ (Graph.ofPackages root packages fun id => (edges.get? id).getD []).ids := by
        rw [← Graph.contains_iff, hcontains]
        exact hid
      rw [if_neg hid, Graph.edges?_eq_none_iff.2 hnone]
      rfl

/-- However often an id is repeated among the packages, and wherever the edges lead, the parts of the roster fit each
other, and it answers as the graph of the same packages and edges does. -/
theorem ofPackages_exact (root : Path) (packages : List Package) (edges : Table PackageId (List Dependency)) :
    (ofPackages packages edges).Sound packages edges ∧
      (ofPackages packages edges).Matches (Graph.ofPackages root packages fun id => (edges.get? id).getD []) :=
  ⟨sound_ofPackages packages edges, matches_ofPackages root packages edges⟩

/-- A package that comes twice, with edges to it, to one that is not there and from one that is not there. -/
example :
    let version (name : String) : Package := { (default : Package) with id := ⟨"a"⟩, name := name }
    let edge (name target : String) : Dependency := { package := ⟨target⟩, rename := some name }
    let r := ofPackages [version "first", { (default : Package) with id := ⟨"b"⟩ }, version "second"]
      ⟨[(⟨"b"⟩, [edge "x" "gone", edge "y" "a", edge "z" "a"]), (⟨"gone"⟩, [edge "x" "a"])]⟩
    r.package ⟨"a"⟩ = .ok (version "first") ∧ r.dependencies ⟨"b"⟩ = .ok [edge "y" "a"] ∧
      r.dependencies ⟨"gone"⟩ = .error (.unknown ⟨"gone"⟩) ∧ r.edges.keys = [⟨"b"⟩] := by
  decide

end Roster

end CrateYard
