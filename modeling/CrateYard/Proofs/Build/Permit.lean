import CrateYard.Proofs.Build.Turn

/-! The permit of a host. It is free, or a build holds it and runs, or it is on its way: a permit that was given up while
others wait is handed to the first of them, and until he takes it nobody holds it and nobody else can. -/

namespace CrateYard.Build

namespace Site

/-- A build has a permit of a host: it holds the lock, or the lock was handed to it. -/
def Owns (s : Site) (host : String) (job : Job) : Bool :=
  job.holds = some host || (s.lock host).handed.any fun t => t.build = job.number

def owners (s : Site) (host : String) : Nat :=
  s.jobs.countP (s.Owns host)

theorem owners_of_not_handed {s : Site} {host : String} (h : (s.lock host).handed = none) :
    s.owners host = s.holders host := by
  unfold owners holders
  congr 1
  funext job
  simp [Owns, h]

theorem owners_of_handed {s : Site} (hr : Rows s) {host : String} {t : Ticket} (h : (s.lock host).handed = some t)
    (hh : s.holders host = 0) (ht : (s.job? t.build).isSome) : s.owners host = 1 := by
  obtain ⟨job, hj⟩ := Option.isSome_iff_exists.1 ht
  obtain ⟨hmem, hnum⟩ := Rows.mem_of_job? hj
  have hnone : ∀ x ∈ s.jobs, x.holds ≠ some host := by simpa [holders, List.countP_eq_zero] using hh
  have hp : ∀ x ∈ s.jobs, (s.Owns host x = true ↔ (x.number == t.build) = true) := fun x hx => by
    simp only [Owns, h, Option.any_some, Bool.or_eq_true, decide_eq_true_eq, beq_iff_eq, hnone x hx, false_or]
    exact eq_comm
  rw [owners, List.countP_congr hp]
  have hcount : (s.jobs.map Job.number).count t.build = 1 :=
    List.count_eq_one_of_mem hr.nodup (List.mem_map.2 ⟨job, hmem, hnum⟩)
  rwa [List.count, List.countP_map] at hcount

end Site

theorem eq_of_countP_le_one {α : Type} {p : α → Bool} {l : List α} (h : l.countP p ≤ 1) {a b : α} (ha : a ∈ l)
    (hb : b ∈ l) (hpa : p a = true) (hpb : p b = true) : a = b := by
  rw [List.countP_eq_length_filter] at h
  have ha' : a ∈ l.filter p := List.mem_filter.2 ⟨ha, hpa⟩
  have hb' : b ∈ l.filter p := List.mem_filter.2 ⟨hb, hpb⟩
  obtain ⟨x, hx⟩ := List.length_eq_one_iff.1 (Nat.le_antisymm h (List.length_pos_of_mem ha'))
  rw [hx, List.mem_singleton] at ha' hb'
  rw [ha', hb']

namespace Orderly

variable {l : Ledger}

theorem free_add_owners (o : Orderly l none none) (host : String) :
    (l.site.lock host).free + l.site.owners host = 1 := by
  have hone := o.balanced.at_rest host
  cases hh : (l.site.lock host).handed with
  | none =>
    rw [Lock.handed_eq_none.2 hh] at hone
    rw [Site.owners_of_not_handed hh]
    omega
  | some t =>
    rw [Lock.onItsWay_of_handed hh] at hone
    obtain ⟨-, -, job, hj, -⟩ := o.seated (mem_tickets_of_handed hh)
    rw [Site.owners_of_handed o.rows hh (by omega) (by rw [hj]; rfl)]
    omega

theorem holds_or_waits (o : Orderly l none none) {host : String} {job : Job} (hj : job ∈ l.site.jobs)
    (hown : l.site.Owns host job = true) : job.holds = some host ∨ job.state = .waiting := by
  simp only [Site.Owns, Bool.or_eq_true, decide_eq_true_eq, Option.any_eq_true] at hown
  rcases hown with hown | ⟨t, ht, hnum⟩
  · exact .inl hown
  · obtain ⟨-, -, x, hx, hs⟩ := o.seated (mem_tickets_of_handed ht)
    rw [hnum, o.rows.job?_of_mem hj] at hx
    exact .inr (Option.some_inj.1 hx ▸ hs)

end Orderly

/-- In every course a host has one permit: it is free, on its way to a waiter of that host, or held by one build. A build
runs exactly while it holds a permit; so one build of a host runs at most. The lock of a host changes only with a move
on that host, such as the end of a build that holds its permit. -/
theorem permit_conserved {moves : List Move} {l : Ledger} (h : Course .start moves l) (host : String) :
    (l.site.lock host).free + (l.site.lock host).onItsWay + l.site.holders host = 1 ∧
    ((l.site.lock host).handed = none → (l.site.lock host).free + l.site.holders host = 1) ∧
    (∀ t, (l.site.lock host).handed = some t → t.lane.host = host ∧ l.site.state? t.build = some .waiting) ∧
    (∀ job ∈ l.site.jobs, job.state = .running ↔ job.holds.isSome = true) ∧
    (∀ a ∈ l.site.jobs, ∀ b ∈ l.site.jobs, a.holds = some host → b.holds = some host → a = b) ∧
    (∀ m, l.Allows m → m.host? l.site ≠ some host →
      (l.after m).site.lock host = l.site.lock host ∧ (l.after m).site.holders host = l.site.holders host) := by
  have o := h.orderly
  have hone := o.balanced.at_rest host
  refine ⟨hone, fun hh => ?_, fun t hh => ?_, fun job hj => (o.rows.sound job hj).running_iff,
    fun a ha b hb hah hbh => ?_, fun m hm hne => ?_⟩
  · rw [Lock.handed_eq_none.2 hh] at hone
    exact hone
  · obtain ⟨hhost, -, job, hj, hs⟩ := o.seated (Orderly.mem_tickets_of_handed hh)
    exact ⟨hhost, by rw [Site.state?, hj, Option.map_some, hs]⟩
  · have hle : l.site.jobs.countP (fun job => job.holds = some host) ≤ 1 := by
      change l.site.holders host ≤ 1
      omega
    exact eq_of_countP_le_one hle ha hb (by simpa using hah) (by simpa using hbh)
  · have hlock := o.lock_after hne
    have hone' := (o.after hm).balanced.at_rest host
    rw [hlock] at hone'
    exact ⟨hlock, by omega⟩

/-- The first of two builds has ended, and its permit is on its way to the second. -/
def handover : List Move :=
  contention ++ [.finish soleLane 1 true]

theorem permit_conserved_contention :
    let l := Ledger.start.afterAll handover
    Course .start handover l ∧ (l.site.lock "/ws").handed = some secondTicket ∧
      (l.site.lock "/ws").free + (l.site.lock "/ws").onItsWay + l.site.holders "/ws" = 1 := by
  have h : Course .start _ _ := .of_allowsAll (show Ledger.start.AllowsAll handover by decide)
  exact ⟨h, by decide, (permit_conserved h "/ws").1⟩

def otherLane : Lane := ⟨2, "/other", 100⟩

/-- A permit on its way is neither free nor held. A build that is ended by a lane of another host gives up the permit of
its own. -/
theorem free_add_holders_handover :
    let l := Ledger.start.afterAll contention
    let l' := Ledger.start.afterAll handover
    Course .start handover l' ∧ (l'.site.lock "/ws").free + l'.site.holders "/ws" = 0 ∧
      Course .start contention l ∧ l.Allows (.finish otherLane 1 true) ∧ otherLane.host ≠ "/ws" ∧
      (l.after (.finish otherLane 1 true)).site.lock "/ws" ≠ l.site.lock "/ws" := by
  have h : Course .start contention _ := .of_allowsAll (show Ledger.start.AllowsAll contention by decide)
  have h' : Course .start handover _ := .of_allowsAll (show Ledger.start.AllowsAll handover by decide)
  exact ⟨h', by decide, h, by decide, by decide, by decide⟩

end CrateYard.Build
