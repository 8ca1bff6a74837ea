import CrateYard.Proofs.Build.Upkeep

/-! The events of a build. A build that was started is announced, then its texts, then its end and a notification; of
one that was canceled before that, the end and the notification are all. What is announced at the end, the result and
the state of the build say the same. -/

namespace CrateYard.Build

open Output (Stream)

theorem Result.Fits.verdict_iff {r : Result} {b : Nat} (h : r.Fits b) :
    (r.verdict.state = .canceled ∧ r.verdict.severity = .info ↔ r.canceled = true) ∧
    (r.verdict.state = .failed ∧ r.verdict.severity = .error ↔ r.canceled = false ∧ r.succeeded = false) ∧
    (r.verdict.state = .succeeded ∧ r.verdict.severity = .warning ↔
      r.succeeded = true ∧ (r.errors ≠ 0 ∨ r.warnings ≠ 0)) ∧
    (r.verdict.state = .succeeded ∧ r.verdict.severity = .info ↔
      r.succeeded = true ∧ r.errors = 0 ∧ r.warnings = 0) := by
  have hapart := h.apart
  unfold Result.verdict Build.verdict
  cases hc : r.canceled with
  | true =>
    have hs : r.succeeded = false := by simpa [hc] using hapart
    simp [hs]
  | false =>
    cases hs : r.succeeded with
    | false => simp
    | true => by_cases he : r.errors = 0 <;> by_cases hw : r.warnings = 0 <;> simp [tally, he, hw]

/-- In every execution of any number of runs, cancellations wherever they fall, nothing is announced of a build before
it runs or ends; a running one has been announced as started and then by its texts; and one that has come to its end
has, after that or as all there is, announced its end and notified of it, once and for all. Full is the story of a build
whose start was answered with yes, and only that; the others were canceled. The announcements, the result, the answer
of the run and the state agree. -/
theorem story_of_steps {errands : Nat → Errand} {w : Workshop} (h : Steps errands .start w) (b : Nat) :
    (w.site.IsEarly b → w.site.story b = []) ∧
    (w.site.state? b = some .running → w.ledger.Returned b true ∧ ∃ (message : String) (texts : List String),
      w.site.story b = .started (idText b) message :: texts.map (.progress (idText b))) ∧
    (∀ st, w.site.state? b = some st → st.isFinal = true → ∃ (r : Result) (severity : Severity) (told : List Progress),
      w.site.result? b = some r ∧ (∀ answer, w.stage b = .answered answer → answer = .ok r) ∧
      w.site.story b = told ++ [.finished (idText b) r.message r.succeeded r.canceled,
        .notification (idText b) severity r.message] ∧
      (w.ledger.Returned b true ∧ (∃ (message : String) (texts : List String),
          told = .started (idText b) message :: texts.map (.progress (idText b))) ∨
        ¬ w.ledger.Returned b true ∧ told = [] ∧ r.canceled = true) ∧
      (st = .canceled ∧ severity = .info ↔ r.canceled = true) ∧
      (st = .failed ∧ severity = .error ↔ r.canceled = false ∧ r.succeeded = false) ∧
      (st = .succeeded ∧ severity = .warning ↔ r.succeeded = true ∧ (r.errors ≠ 0 ∨ r.warnings ≠ 0)) ∧
      (st = .succeeded ∧ severity = .info ↔ r.succeeded = true ∧ r.errors = 0 ∧ r.warnings = 0) ∧
      ∀ w', Steps errands w w' → w'.site.state? b = some st ∧ w'.site.result? b = some r ∧
        w'.site.story b = w.site.story b) := by
  have hkept := h.kept
  have htold := hkept.told b
  refine ⟨htold.early, htold.running, fun st hs hf => ?_⟩
  have hfinal : w.site.IsFinal b := ⟨st, hs, hf⟩
  obtain ⟨r, hended⟩ := htold.ended hfinal
  obtain rfl : st = r.verdict.state := Option.some_inj.1 (hs.symm.trans hended.state)
  -- the build is finished exactly if its start was answered with yes
  have hstory : ∃ told, w.site.story b = told ++ r.farewell ∧
      (w.ledger.Returned b true ∧ (∃ message texts, told = opening b message texts) ∨
        ¬ w.ledger.Returned b true ∧ told = [] ∧ r.canceled = true) := by
    rcases hended.story with ⟨-, hyes, message, texts, hstory⟩ | ⟨hopen, hc, hstory⟩
    · exact ⟨_, hstory, .inl ⟨hyes, message, texts, rfl⟩⟩
    · refine ⟨[], hstory, .inr ⟨fun hyes => ?_, rfl, hc⟩⟩
      exact hfinal.not_running (hkept.order.running ⟨hyes, hopen⟩)
  obtain ⟨told, hstory, hway⟩ := hstory
  have hfarewell : r.farewell = [.finished (idText b) r.message r.succeeded r.canceled,
      .notification (idText b) r.verdict.severity r.message] := by
    rw [Result.farewell, hended.fits.id]
  obtain ⟨hcanceled, hfailed, hwarning, hinfo⟩ := hended.fits.verdict_iff
  refine ⟨r, r.verdict.severity, told, hended.result, fun answer ha => ?_, hfarewell ▸ hstory, hway, hcanceled,
    hfailed, hwarning, hinfo, fun w' h' => ?_⟩
  · have hanswered := hkept.staged b
    rw [ha] at hanswered
    obtain ⟨r', rfl, hended', -⟩ := hanswered
    rw [Option.some_inj.1 (hended'.result.symm.trans hended.result)]
  · have hstays := h'.stays_of_isFinal hkept hfinal
    exact ⟨hstays.state.trans hs, hstays.result.trans hended.result, hstays.story_eq hfinal.not_running⟩

/-- A build that has succeeded with an error: the state, the severity and the result agree, and its start is the first
that is told of it. -/
theorem story_of_steps_error :
    let w := soleAnswered [(.stderr, "error: é\r\n".toUTF8.toList)]
    Steps (fun _ => soleErrand [(.stderr, "error: é\r\n".toUTF8.toList)]) .start w ∧
      w.site.state? 1 = some .succeeded ∧
      ∃ (r : Result) (message : String) (texts : List String), w.site.result? 1 = some r ∧ r.errors = 1 ∧
        w.site.story 1 = .started (idText 1) message :: texts.map (.progress (idText 1)) ++
          [.finished (idText 1) r.message true false, .notification (idText 1) .warning r.message] := by
  intro w
  have hsteps := steps_soleAnswered [(.stderr, "error: é\r\n".toUTF8.toList)]
  have hs : w.site.state? 1 = some .succeeded := by decide +kernel
  have hr : (w.site.result? 1).map (fun r => (r.succeeded, r.canceled, r.errors)) = some (true, false, 1) := by
    decide +kernel
  have hyes : w.ledger.Returned 1 true := by decide +kernel
  obtain ⟨r, severity, told, hresult, -, hstory, hway, -, -, hwarning, -⟩ := (story_of_steps hsteps 1).2.2 _ hs rfl
  rw [hresult] at hr
  obtain ⟨hsucceeded, hcanceled, herrors⟩ : r.succeeded = true ∧ r.canceled = false ∧ r.errors = 1 := by
    simpa using hr
  obtain ⟨-, rfl⟩ := hwarning.2 ⟨hsucceeded, .inl (by rw [herrors]; decide)⟩
  rw [hsucceeded, hcanceled] at hstory
  rcases hway with ⟨-, message, texts, rfl⟩ | ⟨hno, -⟩
  · exact ⟨hsteps, hs, r, message, texts, hresult, herrors, hstory⟩
  · exact absurd hyes hno

end CrateYard.Build
