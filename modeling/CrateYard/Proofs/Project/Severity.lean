import CrateYard.Project.Basic

/-! Merging statuses. The statuses of a list merge to the first of those that have the highest rank, in whatever groups
they are merged. So a project has failed exactly if one of its parts has, and the reason is that of the first. -/

namespace CrateYard

namespace Status

variable {s t : Status} {statuses more : List Status}

/-- A status in a list that has the highest rank there, and is the first that has it. -/
def LeftmostTop (s : Status) (statuses : List Status) : Prop :=
  ∃ before after, statuses = before ++ s :: after ∧ (∀ t ∈ before, t.rank < s.rank) ∧ ∀ t ∈ after, t.rank ≤ s.rank

/-! Two statuses. -/

theorem merge_of_lt (h : s.rank < t.rank) : s.merge t = t :=
  if_pos h

theorem merge_of_le (h : t.rank ≤ s.rank) : s.merge t = s :=
  if_neg (Nat.not_lt.2 h)

@[simp] theorem merge_self (s : Status) : s.merge s = s :=
  merge_of_le (Nat.le_refl _)

@[simp] theorem merge_current (s : Status) : s.merge .current = s :=
  merge_of_le (Nat.zero_le _)

@[simp] theorem current_merge (s : Status) : Status.current.merge s = s := by
  cases s <;> rfl

theorem rank_merge (s t : Status) : (s.merge t).rank = max s.rank t.rank := by
  rcases Nat.lt_or_ge s.rank t.rank with h | h
  · rw [merge_of_lt h, Nat.max_eq_right (Nat.le_of_lt h)]
  · rw [merge_of_le h, Nat.max_eq_left h]

/-- A tie keeps the left one, and so does each of two ties in a row; so the grouping does not matter. -/
theorem merge_assoc (s t u : Status) : (s.merge t).merge u = s.merge (t.merge u) := by
  rcases Nat.lt_or_ge t.rank u.rank with htu | htu
  · rw [merge_of_lt htu]
    rcases Nat.lt_or_ge s.rank t.rank with hst | hst
    · rw [merge_of_lt hst, merge_of_lt htu, merge_of_lt (Nat.lt_trans hst htu)]
    · rw [merge_of_le hst]
  · have hle : u.rank ≤ (s.merge t).rank := by rw [rank_merge]; omega
    rw [merge_of_le htu, merge_of_le hle]

instance : Std.Associative merge := ⟨merge_assoc⟩

/-- A failure outranks all else, so the first reason stays. -/
theorem reason?_merge (s t : Status) : (s.merge t).reason? = s.reason?.or t.reason? := by
  cases s <;> cases t <;> rfl

theorem reason?_eq_some_iff {reason : String} : s.reason? = some reason ↔ s = .failed reason := by
  cases s <;> simp [reason?]

/-! A list of them. -/

theorem mergeAll_cons (s : Status) (statuses : List Status) :
    mergeAll (s :: statuses) = s.merge (mergeAll statuses) := by
  calc mergeAll (s :: statuses)
      _ = statuses.foldl merge (s.merge .current) := by rw [mergeAll, List.foldl_cons, current_merge, merge_current]
      _ = s.merge (mergeAll statuses) := List.foldl_assoc

theorem mergeAll_append (statuses more : List Status) :
    mergeAll (statuses ++ more) = (mergeAll statuses).merge (mergeAll more) := by
  induction statuses with
  | nil => exact (current_merge _).symm
  | cons s rest ih => rw [List.cons_append, mergeAll_cons, mergeAll_cons, ih, merge_assoc]

theorem mergeAll_map_mergeAll (groups : List (List Status)) :
    mergeAll (groups.map mergeAll) = mergeAll groups.flatten := by
  induction groups with
  | nil => rfl
  | cons group rest ih => rw [List.map_cons, List.flatten_cons, mergeAll_cons, mergeAll_append, ih]

/-- One more status: it takes over only with a higher rank than all before it. -/
theorem LeftmostTop.merge (h : LeftmostTop s statuses) (t : Status) : LeftmostTop (s.merge t) (statuses ++ [t]) := by
  obtain ⟨before, after, rfl, hbefore, hafter⟩ := h
  rcases Nat.lt_or_ge s.rank t.rank with hst | hst
  · rw [merge_of_lt hst]
    refine ⟨before ++ s :: after, [], rfl, fun u hu => ?_, by simp⟩
    rcases List.mem_append.1 hu with hu | hu
    · exact Nat.lt_trans (hbefore u hu) hst
    · rcases List.mem_cons.1 hu with rfl | hu
      · exact hst
      · exact Nat.lt_of_le_of_lt (hafter u hu) hst
  · rw [merge_of_le hst]
    refine ⟨before, after ++ [t], by simp, hbefore, fun u hu => ?_⟩
    rcases List.mem_append.1 hu with hu | hu
    · exact hafter u hu
    · exact List.mem_singleton.1 hu ▸ hst

theorem LeftmostTop.foldl_merge (h : LeftmostTop s statuses) (more : List Status) :
    LeftmostTop (more.foldl Status.merge s) (statuses ++ more) := by
  induction more generalizing s statuses with
  | nil => simpa using h
  | cons t rest ih => simpa using ih (h.merge t)

theorem leftmostTop_mergeAll (hne : statuses ≠ []) : LeftmostTop (mergeAll statuses) statuses := by
  obtain ⟨s, rest, rfl⟩ := List.exists_cons_of_ne_nil hne
  have hfirst : LeftmostTop s [s] := ⟨[], [], rfl, by simp, by simp⟩
  simpa [mergeAll] using hfirst.foldl_merge rest

theorem mergeAll_merge_of_lt (h : ∀ t ∈ statuses, t.rank < s.rank) : (mergeAll statuses).merge s = s := by
  induction statuses with
  | nil => exact current_merge s
  | cons t rest ih =>
    rw [List.forall_mem_cons] at h
    rw [mergeAll_cons, merge_assoc, ih h.2, merge_of_lt h.1]

theorem merge_mergeAll_of_le (h : ∀ t ∈ statuses, t.rank ≤ s.rank) : s.merge (mergeAll statuses) = s := by
  induction statuses with
  | nil => exact merge_current s
  | cons t rest ih =>
    rw [List.forall_mem_cons] at h
    rw [mergeAll_cons, ← merge_assoc, merge_of_le h.1, ih h.2]

theorem LeftmostTop.mergeAll_eq (h : LeftmostTop s statuses) : mergeAll statuses = s := by
  obtain ⟨before, after, rfl, hbefore, hafter⟩ := h
  rw [mergeAll_append, mergeAll_cons, merge_mergeAll_of_le hafter, mergeAll_merge_of_lt hbefore]

theorem mergeAll_eq_iff : mergeAll statuses = s ↔ LeftmostTop s statuses ∨ statuses = [] ∧ s = .current := by
  constructor
  · rintro rfl
    by_cases hne : statuses = []
    · exact .inr ⟨hne, hne ▸ rfl⟩
    · exact .inl (leftmostTop_mergeAll hne)
  · rintro (h | ⟨rfl, rfl⟩)
    · exact h.mergeAll_eq
    · rfl

theorem reason?_mergeAll (statuses : List Status) : (mergeAll statuses).reason? = statuses.findSome? reason? := by
  induction statuses with
  | nil => rfl
  | cons s rest ih => rw [mergeAll_cons, reason?_merge, ih, List.findSome?_cons]; cases s.reason? <;> rfl

end Status

namespace Project

/-- The statuses of a project, in the order in which their failures are told. -/
def statuses (p : Project) : List Status :=
  [p.workspaceStatus, p.libraryStatus, p.compilerStatus]

theorem status_eq_mergeAll (p : Project) : p.status = Status.mergeAll p.statuses := by
  simp [status, statuses, Status.mergeAll]

theorem status_eq_failed_iff {p : Project} {reason : String} :
    p.status = .failed reason ↔ p.statuses.findSome? Status.reason? = some reason := by
  rw [status_eq_mergeAll, ← Status.reason?_mergeAll, Status.reason?_eq_some_iff]

theorem exists_status_eq_failed_iff {p : Project} :
    (∃ reason, p.status = .failed reason) ↔ ∃ s ∈ p.statuses, ∃ reason, s = .failed reason := by
  simp only [status_eq_failed_iff, ← Option.isSome_iff_exists, List.findSome?_isSome_iff]
  simp only [Option.isSome_iff_exists, Status.reason?_eq_some_iff]

end Project

/-- Merging may be grouped at will, a status merged with itself or with a current one stays, and a list merges to the
first of its statuses that has the highest rank; an empty one, to a current status. A project has failed exactly if its
workspace, its library or its compiler has, and tells the reason of the first of them in this order. -/
theorem Status.merging_keeps_leftmost_top :
    (∀ s t u : Status, (s.merge t).merge u = s.merge (t.merge u)) ∧
    (∀ s : Status, s.merge s = s ∧ Status.current.merge s = s ∧ s.merge .current = s) ∧
    (∀ groups : List (List Status), mergeAll (groups.map mergeAll) = mergeAll groups.flatten) ∧
    (∀ statuses s, mergeAll statuses = s ↔ LeftmostTop s statuses ∨ statuses = [] ∧ s = .current) ∧
    ∀ p : Project,
      ((∃ reason, p.status = .failed reason) ↔
        ∃ s ∈ [p.workspaceStatus, p.libraryStatus, p.compilerStatus], ∃ reason, s = .failed reason) ∧
      ∀ reason, p.status = .failed reason ↔
        [p.workspaceStatus, p.libraryStatus, p.compilerStatus].findSome? Status.reason? = some reason :=
  ⟨merge_assoc, fun s => ⟨merge_self s, current_merge s, merge_current s⟩, mergeAll_map_mergeAll,
    fun _ _ => mergeAll_eq_iff, fun _ => ⟨Project.exists_status_eq_failed_iff, fun _ => Project.status_eq_failed_iff⟩⟩

example : Status.mergeAll [.stale, .failed "left", .failed "right"] = .failed "left" := by decide

end CrateYard
