import CrateYard.Proofs.Build.Turn

/-! The outcome of a build is written once. Three places write it (a cancellation of an idle build, the look of a
waiting one, the end of a running one), and the state of the build says whose part it is. -/

namespace CrateYard.Build

theorem Course.keeps_of_isFinal {l l' : Ledger} {moves : List Move} (o : Orderly l none none) (h : Course l moves l')
    {b : Nat} {st : State} (hs : l.site.state? b = some st) (hf : st.isFinal = true) :
    Orderly l' none none ∧ Keeps b l.site l'.site := by
  induction h with
  | nil => exact ⟨o, .refl b l.site⟩
  | snoc _ hm ih =>
    obtain ⟨o', hk⟩ := ih
    exact ⟨o'.after hm, hk.trans (o'.keeps_of_isFinal hm (hk.state.trans hs) hf)⟩

/-- In every course no result is written twice, a build has a result exactly when it has come to its end, a build that
was not started was canceled, and what has come to its end changes no more. -/
theorem outcome_written_once {moves : List Move} {l : Ledger} (h : Course .start moves l) :
    (∀ e, Notice.refused e ∉ l.site.notices) ∧
    (∀ job ∈ l.site.jobs, job.outcome.cell.version ≤ 1 ∧
      (job.outcome.cell.value.isSome = true ↔ job.state = .succeeded ∨ job.state = .failed ∨ job.state = .canceled)) ∧
    (∀ b, l.Returned b false → ∃ job result, l.site.job? b = some job ∧ job.state = .canceled ∧
      job.outcome.cell.value = some result ∧ result.canceled = true ∧ result.succeeded = false) ∧
    (∀ later l', Course l later l' → ∀ b job, l.site.job? b = some job → job.outcome.cell.value.isSome = true →
      ∃ job', l'.site.job? b = some job' ∧ job'.state = job.state ∧
        job'.outcome.cell.value = job.outcome.cell.value) := by
  have o := h.orderly
  refine ⟨o.answers.unrefused, fun job hj => ?_, fun b hb => ?_, fun later l' h' b job hj hv => ?_⟩
  · have hsound := o.rows.sound job hj
    refine ⟨?_, ?_⟩
    · rw [hsound.version]
      split <;> decide
    · rw [hsound.final_iff]
      cases job.state <;> simp [State.isFinal]
  · obtain ⟨r, hr, ha⟩ := hb
    obtain ⟨hs, result, hresult, hc⟩ := o.answers.no b r hr ha
    obtain ⟨job, hj, hstate⟩ := Option.map_eq_some_iff.1 hs
    rw [Site.result?, hj] at hresult
    exact ⟨job, result, hj, hstate, hresult, hc⟩
  · have hfinal := (o.rows.sound job (Rows.mem_of_job? hj).1).final_iff.1 hv
    have hs : l.site.state? b = some job.state := by rw [Site.state?, hj]; rfl
    have hk := (h'.keeps_of_isFinal o hs hfinal).2
    obtain ⟨job', hj', hstate⟩ := Option.map_eq_some_iff.1 (hk.state.trans hs)
    refine ⟨job', hj', hstate, ?_⟩
    have hr := hk.result
    rwa [Site.result?, Site.result?, hj, hj'] at hr

/-- The second of two builds is canceled while it waits, and is told so at the end of its interval. -/
theorem outcome_written_once_contention :
    let moves := contention ++ [.cancel soleLane 2, .expire secondTicket]
    Course .start moves (.afterAll .start moves) ∧ (Ledger.start.afterAll moves).Returned 2 false ∧
      ∃ job result, (Ledger.start.afterAll moves).site.job? 2 = some job ∧ job.state = .canceled ∧
        job.outcome.cell.value = some result ∧ result.canceled = true ∧ result.succeeded = false := by
  have h : Course .start _ _ :=
    .of_allowsAll (show Ledger.start.AllowsAll (contention ++ [.cancel soleLane 2, .expire secondTicket]) by decide)
  have hr : (Ledger.start.afterAll (contention ++ [.cancel soleLane 2, .expire secondTicket])).Returned 2 false := by
    decide
  exact ⟨h, hr, (outcome_written_once h).2.2.1 2 hr⟩

end CrateYard.Build
