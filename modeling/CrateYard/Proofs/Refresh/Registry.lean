import CrateYard.Project.Registry
import Mathlib.Data.List.Forall2
import Mathlib.Data.List.Nodup
import Mathlib.Tactic.Common

/-! What becomes of the attached projects. Manifests are compared by their components, so the components of its manifest
are the key of a project. No operation gives two projects one key, and a commit leaves every key in its place. -/

namespace CrateYard

theorem Path.same_iff {p q : Path} : p.same q = true ↔ p.components = q.components := by
  simp [same]

/-- What tells a project from the others. -/
def Project.key (p : Project) : List Component :=
  p.manifest.components

/-- The refreshed project of the same manifest, or the project itself. -/
def Project.settle (p : Project) (refreshed : List Project) : Project :=
  refreshed.foldl (fun p q => if p.manifest.same q.manifest then q else p) p

namespace Project

variable {p q : Project} {refreshed : List Project}

theorem settle_of_not_mem (h : p.key ∉ refreshed.map key) : p.settle refreshed = p := by
  unfold settle
  induction refreshed with
  | nil => rfl
  | cons r rest ih =>
    rw [List.map_cons, List.mem_cons, not_or] at h
    have hr : p.manifest.same r.manifest ≠ true := fun hs => h.1 (Path.same_iff.1 hs)
    rw [List.foldl_cons, if_neg hr]
    exact ih h.2

theorem settle_of_mem (hd : (refreshed.map key).Nodup) (hq : q ∈ refreshed) (hk : q.key = p.key) :
    p.settle refreshed = q := by
  unfold settle
  induction refreshed with
  | nil => cases hq
  | cons r rest ih =>
    rw [List.map_cons, List.nodup_cons] at hd
    rw [List.foldl_cons]
    rcases List.mem_cons.1 hq with rfl | hq
    · rw [if_pos (Path.same_iff.2 hk.symm)]
      -- no other has its key
      exact settle_of_not_mem hd.1
    · have hne : r.key ≠ p.key := fun he => hd.1 (List.mem_map.2 ⟨q, hq, hk.trans he.symm⟩)
      rw [if_neg fun hs => hne (Path.same_iff.1 hs).symm]
      exact ih hd.2 hq

theorem key_settle (p : Project) (refreshed : List Project) : (p.settle refreshed).key = p.key := by
  unfold settle
  induction refreshed generalizing p with
  | nil => rfl
  | cons r rest ih =>
    rw [List.foldl_cons, ih]
    split
    · next hs => exact (Path.same_iff.1 hs).symm
    · rfl

end Project

namespace Registry

variable {r : Registry} {m : Path} {p : Project}

def keys (r : Registry) : List (List Component) :=
  r.projects.map Project.key

theorem isAttached_iff : r.isAttached m = true ↔ m.components ∈ r.keys := by
  simp [isAttached, keys, Project.key, Path.same_iff]

theorem isAttached_congr {r' : Registry} (h : r'.keys = r.keys) (m : Path) : r'.isAttached m = r.isAttached m := by
  rw [Bool.eq_iff_iff, isAttached_iff, isAttached_iff, h]

theorem projects_foldl_replace (r : Registry) (refreshed : List Project) :
    (refreshed.foldl replace r).projects = r.projects.map fun p => p.settle refreshed := by
  unfold Project.settle
  induction refreshed generalizing r with
  | nil => simp
  | cons q rest ih =>
    rw [List.foldl_cons, ih, replace, List.map_map]
    rfl

theorem projects_commit (r : Registry) (refreshed : List Project) :
    (r.commit refreshed).registry.projects = r.projects.map fun p => p.settle refreshed :=
  r.projects_foldl_replace refreshed

theorem keys_commit (r : Registry) (refreshed : List Project) : (r.commit refreshed).registry.keys = r.keys := by
  rw [keys, projects_commit, List.map_map, keys]
  apply List.map_congr_left
  intro p _
  exact p.key_settle refreshed

/-- A commit of one project for each that is attached, in their order, replaces them all. -/
theorem commit_of_keys_eq {refreshed : List Project} (h : r.keys.Nodup) (hkeys : refreshed.map Project.key = r.keys) :
    (r.commit refreshed).registry.projects = refreshed ∧ (r.commit refreshed).answer = refreshed := by
  constructor
  · have hlength : r.projects.length = refreshed.length := by
      simpa [keys] using (congrArg List.length hkeys).symm
    rw [projects_commit]
    refine List.ext_getElem (by rw [List.length_map, hlength]) fun i hi hi' => ?_
    have hkey := List.getElem_of_eq hkeys (by rwa [List.length_map] : i < (refreshed.map Project.key).length)
    simp only [keys, List.getElem_map] at hkey ⊢
    exact Project.settle_of_mem (hkeys ▸ h) (List.getElem_mem hi') hkey
  · refine List.filter_eq_self.2 fun q hq => isAttached_iff.2 ?_
    rw [← hkeys]
    exact List.mem_map_of_mem hq

theorem keys_attach (r : Registry) (m : Path) :
    (r.attach m).registry.keys = if m.components ∈ r.keys then r.keys else r.keys ++ [m.components] := by
  unfold attach
  by_cases h : r.isAttached m = true
  · rw [if_pos h, if_pos (isAttached_iff.1 h)]
    rfl
  · rw [if_neg h, if_neg fun hm => h (isAttached_iff.2 hm)]
    simp [keys, announcing, Project.key, Project.new]

theorem keys_setHostData (r : Registry) (m : Path) (data : String) : (r.setHostData m data).registry.keys = r.keys := by
  unfold setHostData quietly keys
  rw [List.map_map]
  apply List.map_congr_left
  intro p _
  by_cases h : p.manifest.same m = true <;> simp [h, Project.key]

theorem projects_detach (r : Registry) (m : Path) :
    (r.detach m).registry.projects = r.projects.filter fun p => !p.manifest.same m := by
  unfold detach
  by_cases h : r.isAttached m = true
  · rw [if_pos h]
    rfl
  · rw [if_neg h]
    symm
    apply List.filter_eq_self.2
    intro p hp
    have hne : p.manifest.same m ≠ true := fun hs => h (List.any_eq_true.2 ⟨p, hp, hs⟩)
    simpa using hne

theorem nodup_keys_attach (h : r.keys.Nodup) (m : Path) : (r.attach m).registry.keys.Nodup := by
  rw [keys_attach]
  split
  · exact h
  · next hm => exact List.Nodup.append h (List.nodup_singleton _) (by simpa using hm)

theorem keys_detach (r : Registry) (m : Path) :
    (r.detach m).registry.keys = r.keys.filter fun k => k ≠ m.components := by
  rw [keys, projects_detach, keys, List.filter_map]
  congr 2
  funext p
  simp [Path.same, Project.key]
  rfl

theorem nodup_keys_detach (h : r.keys.Nodup) (m : Path) : (r.detach m).registry.keys.Nodup := by
  rw [keys_detach]
  exact h.filter _

/-! The project of a manifest. -/

theorem of_project? (h : r.project? m = some p) : p ∈ r.projects ∧ p.key = m.components := by
  unfold project? at h
  exact ⟨List.mem_of_find?_eq_some h, Path.same_iff.1 (by simpa using List.find?_some h)⟩

theorem exists_project? (h : r.isAttached m = true) : ∃ p, r.project? m = some p := by
  obtain ⟨p, hp, hs⟩ := List.any_eq_true.1 h
  cases hf : r.project? m with
  | none => exact absurd hs (List.find?_eq_none.1 hf p hp)
  | some q => exact ⟨q, rfl⟩

theorem project?_eq_some_iff (h : r.keys.Nodup) : r.project? m = some p ↔ p ∈ r.projects ∧ p.key = m.components := by
  refine ⟨of_project?, fun ⟨hp, hk⟩ => ?_⟩
  have hattached : r.isAttached m = true := List.any_eq_true.2 ⟨p, hp, Path.same_iff.2 hk⟩
  obtain ⟨q, hq⟩ := exists_project? hattached
  obtain ⟨hmem, hk'⟩ := of_project? hq
  rw [hq, List.inj_on_of_nodup_map h hmem hp (hk'.trans hk.symm)]

theorem isAttached_of_project? (h : r.project? m = some p) : r.isAttached m = true := by
  obtain ⟨hp, hk⟩ := of_project? h
  exact List.any_eq_true.2 ⟨p, hp, Path.same_iff.2 hk⟩

theorem project?_commit (r : Registry) (refreshed : List Project) (m : Path) :
    (r.commit refreshed).registry.project? m = (r.project? m).map fun p => p.settle refreshed := by
  have hsame : ((fun q : Project => q.manifest.same m) ∘ fun p : Project => p.settle refreshed) =
      fun p => p.manifest.same m := by
    funext p
    have hk := p.key_settle refreshed
    unfold Project.key at hk
    simp [Path.same, hk]
  unfold project?
  rw [projects_commit, List.find?_map, hsame]

theorem project?_attach (h : r.isAttached m = true) (m' : Path) :
    (r.attach m').registry.project? m = r.project? m := by
  obtain ⟨p, hp⟩ := exists_project? h
  unfold attach
  split
  · rfl
  · change List.find? _ (r.projects ++ [Project.new m']) = List.find? _ r.projects
    unfold project? at hp
    rw [List.find?_append, hp]
    rfl

theorem project?_detach_of_ne {m' : Path} (hne : m.components ≠ m'.components) :
    (r.detach m').registry.project? m = r.project? m := by
  unfold project?
  rw [projects_detach, List.find?_filter]
  congr 1
  funext p
  by_cases hs : p.manifest.same m = true
  · have hs' : p.manifest.same m' ≠ true := fun hs' => hne ((Path.same_iff.1 hs).symm.trans (Path.same_iff.1 hs'))
    simp [hs, hs']
  · simp [hs]

theorem project?_detach {m' : Path} (h : (r.detach m').registry.isAttached m = true) :
    (r.detach m').registry.project? m = r.project? m := by
  rw [isAttached_iff, keys_detach] at h
  exact project?_detach_of_ne (of_decide_eq_true (List.mem_filter.1 h).2)

theorem project?_setHostData_eq (r : Registry) (m m' : Path) (data : String) :
    (r.setHostData m' data).registry.project? m = (r.project? m).map fun p =>
      if p.manifest.same m' then { p with hostData := some data } else p := by
  -- the manifests stay as they are
  have hsame : ((fun q : Project => q.manifest.same m) ∘
      fun p : Project => if p.manifest.same m' then { p with hostData := some data } else p) =
      fun p => p.manifest.same m := by
    funext p
    by_cases h : p.manifest.same m' = true <;> simp [h]
  unfold setHostData quietly project?
  rw [List.find?_map, hsame]

theorem project?_setHostData (r : Registry) (m m' : Path) (data : String) :
    ((r.setHostData m' data).registry.project? m).map Project.workspace = (r.project? m).map Project.workspace := by
  rw [project?_setHostData_eq, Option.map_map]
  refine Option.map_congr fun p _ => ?_
  by_cases h : p.manifest.same m' = true <;> simp [h]

end Registry

end CrateYard
