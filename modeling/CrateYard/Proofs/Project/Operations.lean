import CrateYard.Proofs.Refresh.Registry
import Mathlib.Data.List.Induction

/-! The registry is an ordered map. It is looked at through its keys, in order, and through the project of a manifest;
each operation is described by what it makes of these two, by what it answers and by what it announces. From the empty
registry on, whatever the operations, no key comes twice, and the keys stand in the order in which they were attached
the last time. -/

namespace CrateYard

theorem Project.settle_eq (p : Project) (batch : List Project) :
    p.settle batch = ((batch.filter fun q => q.key = p.key).getLast?).getD p := by
  induction batch using List.reverseRecOn with
  | nil => rfl
  | append_singleton batch q ih =>
    have hstep : p.settle (batch ++ [q]) = if (p.settle batch).manifest.same q.manifest then q else p.settle batch := by
      rw [settle, List.foldl_concat]
      rfl
    have hkey : (p.settle batch).manifest.components = p.key := p.key_settle batch
    rw [hstep, List.filter_append]
    by_cases hq : q.key = p.key
    · rw [if_pos (Path.same_iff.2 (hkey.trans hq.symm))]
      simp [hq]
    · rw [if_neg fun hs => hq ((Path.same_iff.1 hs).symm.trans hkey), ih]
      simp [hq]

namespace Registry

inductive Operation where
  | attach (manifest : Path)
  | detach (manifest : Path)
  | commit (batch : List Project)
  | setHostData (manifest : Path) (data : String)

inductive Answer where
  | flag (b : Bool)
  | projects (committed : List Project)

def operate (r : Registry) : Operation → Change Answer
  | .attach m => let c := r.attach m; ⟨c.registry, .flag c.answer, c.announced⟩
  | .detach m => let c := r.detach m; ⟨c.registry, .flag c.answer, c.announced⟩
  | .commit batch => let c := r.commit batch; ⟨c.registry, .projects c.answer, c.announced⟩
  | .setHostData m data => let c := r.setHostData m data; ⟨c.registry, .flag c.answer, c.announced⟩

def afterAll (r : Registry) (ops : List Operation) : Registry :=
  ops.foldl (fun r op => (r.operate op).registry) r

def log (r : Registry) : List Operation → List (Operation × Answer)
  | [] => []
  | op :: rest => (op, (r.operate op).answer) :: log (r.operate op).registry rest

def attaches (k : List Component) : Operation × Answer → Bool
  | (.attach m, .flag true) => m.components = k
  | _ => false

/-- The number of operations before the one that attached the project of `k` the last time. -/
def attachedAt? (k : List Component) (log : List (Operation × Answer)) : Option Nat :=
  ((log.zipIdx.filter fun x => attaches k x.1).getLast?).map (·.2)

/-- The times of their latest attachments increase from key to key. -/
def InOrder (r : Registry) (log : List (Operation × Answer)) : Prop :=
  ∃ times : List Nat, r.keys.map (fun k => attachedAt? k log) = times.map some ∧ times.Pairwise (· < ·)

def SparesOthers (r : Registry) (m : Path) (r' : Registry) : Prop :=
  ∀ m', m'.components ≠ m.components → r'.project? m' = r.project? m'

/-- What an operation on an ordered map does, answers and announces. -/
def Obeys (r : Registry) (op : Operation) (c : Change Answer) : Prop :=
  match op with
  | .attach m =>
    c.answer = .flag (m.components ∉ r.keys) ∧
    c.registry.keys = (if m.components ∈ r.keys then r.keys else r.keys ++ [m.components]) ∧
    c.registry.project? m = some ((r.project? m).getD (.new m)) ∧ r.SparesOthers m c.registry ∧
    c.announced = if m.components ∈ r.keys then [] else [c.registry.manifests]
  | .detach m =>
    c.answer = .flag (m.components ∈ r.keys) ∧
    c.registry.keys = (r.keys.filter fun k => k ≠ m.components) ∧
    c.registry.project? m = none ∧ r.SparesOthers m c.registry ∧
    c.announced = if m.components ∈ r.keys then [c.registry.manifests] else []
  | .commit batch =>
    c.answer = .projects (batch.filter fun q => q.key ∈ r.keys) ∧
    c.registry.keys = r.keys ∧
    (∀ m, c.registry.project? m = (r.project? m).map fun p =>
      ((batch.filter fun q => q.key = m.components).getLast?).getD p) ∧
    c.announced = [c.registry.manifests]
  | .setHostData m data =>
    c.answer = .flag (m.components ∈ r.keys) ∧
    c.registry.keys = r.keys ∧
    c.registry.project? m = ((r.project? m).map fun p => { p with hostData := some data }) ∧
    r.SparesOthers m c.registry ∧
    c.announced = []

variable {r : Registry} {m : Path}

theorem isAttached_eq (r : Registry) (m : Path) : r.isAttached m = decide (m.components ∈ r.keys) := by
  rw [Bool.eq_iff_iff, isAttached_iff, decide_eq_true_iff]

theorem project?_eq_none_iff : r.project? m = none ↔ m.components ∉ r.keys := by
  rw [← isAttached_iff]
  constructor
  · intro h hattached
    obtain ⟨p, hp⟩ := exists_project? hattached
    rw [h] at hp
    cases hp
  · intro h
    cases hp : r.project? m with
    | none => rfl
    | some p => exact absurd (isAttached_of_project? hp) h

/-! What each operation makes of the entries. -/

theorem attach_of_mem (h : m.components ∈ r.keys) : r.attach m = r.quietly false := by
  rw [attach, if_pos (isAttached_iff.2 h)]

theorem attach_of_not_mem (h : m.components ∉ r.keys) :
    r.attach m = announcing ⟨r.projects ++ [.new m]⟩ true := by
  rw [attach, if_neg fun ha => h (isAttached_iff.1 ha)]

theorem project?_attach_self (r : Registry) (m : Path) :
    (r.attach m).registry.project? m = some ((r.project? m).getD (.new m)) := by
  by_cases h : m.components ∈ r.keys
  · obtain ⟨p, hp⟩ := exists_project? (isAttached_iff.2 h)
    rw [attach_of_mem h, hp]
    exact hp
  · have hnone : r.projects.find? (fun p => p.manifest.same m) = none := project?_eq_none_iff.2 h
    have hself : (Project.new m).manifest.same m = true := Path.same_iff.2 rfl
    rw [attach_of_not_mem h, project?_eq_none_iff.2 h, project?, announcing, List.find?_append, hnone, Option.none_or,
      List.find?_singleton, if_pos hself]
    rfl

theorem sparesOthers_attach (r : Registry) (m : Path) : r.SparesOthers m (r.attach m).registry := by
  intro m' hne
  by_cases h : m.components ∈ r.keys
  · rw [attach_of_mem h]
    rfl
  · have hother : m.same m' = false := by simpa [Path.same] using Ne.symm hne
    rw [attach_of_not_mem h]
    simp [project?, announcing, Project.new, hother]

theorem obeys_attach (r : Registry) (m : Path) : r.Obeys (.attach m) (r.operate (.attach m)) := by
  have hanswer : (r.attach m).answer = decide (m.components ∉ r.keys) := by
    by_cases h : m.components ∈ r.keys
    · simp [attach_of_mem h, quietly, h]
    · simp [attach_of_not_mem h, announcing, h]
  have hannounced : (r.attach m).announced =
      if m.components ∈ r.keys then [] else [(r.attach m).registry.manifests] := by
    by_cases h : m.components ∈ r.keys
    · simp [attach_of_mem h, quietly, h]
    · simp [attach_of_not_mem h, announcing, h]
  exact ⟨congrArg _ hanswer, r.keys_attach m, r.project?_attach_self m, r.sparesOthers_attach m, hannounced⟩

theorem sparesOthers_detach (r : Registry) (m : Path) : r.SparesOthers m (r.detach m).registry :=
  fun _ hne => project?_detach_of_ne hne

theorem obeys_detach (r : Registry) (m : Path) : r.Obeys (.detach m) (r.operate (.detach m)) := by
  have hanswer : (r.detach m).answer = decide (m.components ∈ r.keys) := by
    by_cases h : m.components ∈ r.keys <;> simp [detach, isAttached_eq, h, announcing, quietly]
  have hgone : (r.detach m).registry.project? m = none := by
    apply project?_eq_none_iff.2
    rw [keys_detach]
    simp
  have hannounced : (r.detach m).announced =
      if m.components ∈ r.keys then [(r.detach m).registry.manifests] else [] := by
    by_cases h : m.components ∈ r.keys <;> simp [detach, isAttached_eq, h, announcing, quietly]
  exact ⟨congrArg _ hanswer, r.keys_detach m, hgone, r.sparesOthers_detach m, hannounced⟩

theorem obeys_commit (r : Registry) (batch : List Project) : r.Obeys (.commit batch) (r.operate (.commit batch)) := by
  have hanswer : (r.commit batch).answer = batch.filter fun q => q.key ∈ r.keys :=
    List.filter_congr fun q _ => r.isAttached_eq q.manifest
  refine ⟨congrArg _ hanswer, r.keys_commit batch, fun m => ?_, rfl⟩
  refine (r.project?_commit batch m).trans (Option.map_congr fun p hp => ?_)
  rw [p.settle_eq, (of_project? hp).2]

theorem obeys_setHostData (r : Registry) (m : Path) (data : String) :
    r.Obeys (.setHostData m data) (r.operate (.setHostData m data)) := by
  have hself : (r.setHostData m data).registry.project? m =
      (r.project? m).map fun p => { p with hostData := some data } := by
    rw [project?_setHostData_eq]
    exact Option.map_congr fun p hp => if_pos (Path.same_iff.2 (of_project? hp).2)
  have hspares : r.SparesOthers m (r.setHostData m data).registry := by
    intro m' hne
    rw [project?_setHostData_eq]
    refine (Option.map_congr fun p hp => ?_).trans (Option.map_id_apply ..)
    exact if_neg fun hs => hne ((of_project? hp).2.symm.trans (Path.same_iff.1 hs))
  exact ⟨congrArg _ (r.isAttached_eq m), r.keys_setHostData m data, hself, hspares, rfl⟩

theorem attachedAt?_concat (k : List Component) (log : List (Operation × Answer)) (e : Operation × Answer) :
    attachedAt? k (log ++ [e]) = if attaches k e then some log.length else attachedAt? k log := by
  unfold attachedAt?
  rw [List.zipIdx_append, List.filter_append]
  by_cases h : attaches k e = true <;> simp [h]

theorem attachedAt?_lt {log : List (Operation × Answer)} {n : Nat} (h : attachedAt? k log = some n) :
    n < log.length := by
  obtain ⟨x, hx, rfl⟩ := Option.map_eq_some_iff.1 h
  have hmem := (List.mem_filter.1 (List.mem_of_getLast? hx)).1
  have hlt := List.snd_lt_of_mem_zipIdx hmem
  simpa using hlt

/-- The keys that stay are in order still, if none of them is attached anew. -/
theorem InOrder.of_sublist {r' : Registry} {log : List (Operation × Answer)} {e : Operation × Answer}
    (h : r.InOrder log) (hsub : r'.keys.Sublist r.keys) (he : ∀ k ∈ r'.keys, attaches k e = false) :
    r'.InOrder (log ++ [e]) := by
  obtain ⟨times, hmap, hlt⟩ := h
  have hold : r'.keys.map (fun k => attachedAt? k (log ++ [e])) = r'.keys.map fun k => attachedAt? k log := by
    refine List.map_congr_left fun k hk => ?_
    rw [attachedAt?_concat, if_neg (by simp [he k hk])]
  have hsub' := hsub.map fun k => attachedAt? k log
  rw [hmap] at hsub'
  obtain ⟨times', hsub'', htimes⟩ := List.sublist_map_iff.1 hsub'
  exact ⟨times', hold.trans htimes, hlt.sublist hsub''⟩

theorem InOrder.operate {log : List (Operation × Answer)} (h : r.InOrder log) (op : Operation) :
    (r.operate op).registry.InOrder (log ++ [(op, (r.operate op).answer)]) := by
  cases op with
  | attach m =>
    obtain ⟨hanswer, hkeys, -⟩ := r.obeys_attach m
    by_cases hm : m.components ∈ r.keys
    · rw [if_pos hm] at hkeys
      refine h.of_sublist (by rw [hkeys]) fun k _ => ?_
      rw [hanswer]
      simp [attaches, hm]
    · rw [if_neg hm] at hkeys
      obtain ⟨times, hmap, hlt⟩ := h
      have hold : ∀ k ∈ r.keys, attachedAt? k (log ++ [(.attach m, (r.operate (.attach m)).answer)]) =
          attachedAt? k log := by
        intro k hk
        have hne : m.components ≠ k := fun he => hm (he ▸ hk)
        rw [attachedAt?_concat, hanswer]
        simp [attaches, hm, hne]
      have hnew : attachedAt? m.components (log ++ [(.attach m, (r.operate (.attach m)).answer)]) =
          some log.length := by
        rw [attachedAt?_concat, hanswer]
        simp [attaches, hm]
      refine ⟨times ++ [log.length], ?_, List.pairwise_append.2 ⟨hlt, List.pairwise_singleton _ _, ?_⟩⟩
      · rw [hkeys, List.map_append, List.map_append, List.map_congr_left hold, hmap, List.map_singleton, hnew]
        rfl
      · -- all others were attached before
        intro n hn n' hn'
        obtain rfl := List.mem_singleton.1 hn'
        have hsome : some n ∈ r.keys.map fun k => attachedAt? k log := by
          rw [hmap]
          exact List.mem_map_of_mem hn
        obtain ⟨k, -, hk⟩ := List.mem_map.1 hsome
        exact attachedAt?_lt hk
  | detach m =>
    obtain ⟨-, hkeys, -⟩ := r.obeys_detach m
    exact h.of_sublist (by rw [hkeys]; exact List.filter_sublist) fun _ _ => rfl
  | commit batch => exact h.of_sublist (by rw [(r.obeys_commit batch).2.1]) fun _ _ => rfl
  | setHostData m data => exact h.of_sublist (by rw [(r.obeys_setHostData m data).2.1]) fun _ _ => rfl

theorem afterAll_concat (r : Registry) (ops : List Operation) (op : Operation) :
    r.afterAll (ops ++ [op]) = ((r.afterAll ops).operate op).registry :=
  List.foldl_concat ..

theorem log_concat (r : Registry) (ops : List Operation) (op : Operation) :
    r.log (ops ++ [op]) = r.log ops ++ [(op, ((r.afterAll ops).operate op).answer)] := by
  induction ops generalizing r with
  | nil => rfl
  | cons first rest ih => exact congrArg (List.cons _) (ih _)

theorem inOrder_afterAll (ops : List Operation) : (empty.afterAll ops).InOrder (empty.log ops) := by
  induction ops using List.reverseRecOn with
  | nil => exact ⟨[], rfl, List.Pairwise.nil⟩
  | append_singleton ops op ih =>
    rw [afterAll_concat, log_concat]
    exact ih.operate op

theorem InOrder.nodup {log : List (Operation × Answer)} (h : r.InOrder log) : r.keys.Nodup := by
  obtain ⟨times, hmap, hlt⟩ := h
  have hnodup : (times.map some).Nodup := List.Nodup.map (fun _ _ => Option.some.inj) (hlt.imp Nat.ne_of_lt)
  rw [← hmap] at hnodup
  exact hnodup.of_map _

end Registry

end CrateYard
