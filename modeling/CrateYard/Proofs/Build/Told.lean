import CrateYard.Proofs.Build.Refusal
import CrateYard.Proofs.Build.Story

/-! What is told of a build: nothing before it runs or ends, then that it has started, then its texts, and at last
its end. `Goes` says what one move does to a build, and `Told` is what holds of the announcements between moves. -/

namespace CrateYard.Build

namespace Result

def verdict (r : Result) : Verdict :=
  Build.verdict r.canceled r.succeeded r.errors r.warnings

def farewell (r : Result) : List Progress :=
  [.finished r.id r.message r.succeeded r.canceled, .notification r.id r.verdict.severity r.message]

/-- A result is that of a build, and does not contradict itself. -/
structure Fits (r : Result) (b : Nat) : Prop where
  id : r.id = idText b
  message : r.message = r.verdict.message
  apart : ¬ (r.succeeded = true ∧ r.canceled = true)
  bare : r.succeeded = false → r.artifacts = []

end Result

theorem Job.verdict_result (job : Job) (succeeded canceled : Bool) (message : String) :
    (job.result succeeded canceled message).verdict = verdict canceled succeeded job.errors job.warnings := by
  cases canceled with
  | true => rfl
  | false => simp [Result.verdict, Job.result]

theorem Job.fits_result (job : Job) (succeeded canceled : Bool) {message : String}
    (hm : message = (verdict canceled succeeded job.errors job.warnings).message) :
    (job.result succeeded canceled message).Fits job.number := by
  refine ⟨rfl, ?_, ?_, ?_⟩
  · rw [job.verdict_result]
    exact hm
  · cases canceled <;> simp [Job.result]
  · intro h
    exact if_neg (by simpa [Job.result] using h)

/-- A build comes to its end with a result. -/
structure Closes (b : Nat) (s s' : Site) (r : Result) : Prop where
  state : s'.state? b = some r.verdict.state
  result : s'.result? b = some r
  marks : s'.marks b = s.marks b ++ r.farewell
  canceled : r.canceled = true ↔ s'.IsCanceled b
  fits : r.Fits b

namespace Closes

variable {s s' : Site} {b : Nat} {result : Result}

theorem publish {x : Job} (hj : s'.job? b = some x) (hs : x.state = result.verdict.state)
    (hv : x.outcome.cell.value = some result) (hm : s'.marks b = s.marks b)
    (hc : result.canceled = s'.isCanceled x) (hf : result.Fits b) (lane : Lane) :
    Closes b s (s'.publish lane result.farewell) result := by
  have hj' : (s'.publish lane result.farewell).job? b = some x := hj
  refine ⟨by rw [Site.state?_eq hj', hs], by rw [Site.result?, hj']; exact hv, ?_, ?_, hf⟩
  · rw [Site.publish, Site.marks_notify, hm]
    simp [Result.farewell, Notice.mark?, Progress.id, Progress.isMark, hf.id]
  · constructor
    · intro h
      exact ⟨x, hj', hc.symm.trans h⟩
    · rintro ⟨y, hy, h⟩
      obtain rfl : x = y := Option.some_inj.1 (hj'.symm.trans hy)
      exact hc.trans h

theorem answer (h : Closes b s s' result) (r : Nat) (ok : Bool) :
    Closes b s (s'.notify [.answered r ok]) result := by
  refine ⟨h.state, h.result, ?_, h.canceled, h.fits⟩
  rw [Site.marks_notify, h.marks]
  simp [Notice.mark?]

theorem of_marks {s₀ : Site} (h : Closes b s s' result) (hm : s.marks b = s₀.marks b) : Closes b s₀ s' result :=
  ⟨h.state, h.result, by rw [h.marks, hm], h.canceled, h.fits⟩

end Closes

theorem Site.closes_concludeCanceled {s : Site} {job : Job} {b : Nat} (hj : s.job? b = some job)
    (hv : job.outcome.cell.value = none) (hc : s.isCanceled job = true) (lane : Lane) :
    Closes b s (s.concludeCanceled lane job).1 (canceledResult job) := by
  obtain ⟨-, rfl⟩ := Rows.mem_of_job? hj
  rw [concludeCanceled_eq s lane hv]
  have hj' := job?_update_self
    (f := fun x => x.ended (verdict true false 0 0) (job.outcome.written (canceledResult job))) (fun _ => rfl) s _ hj
  exact (Closes.publish hj' rfl rfl rfl hc.symm (job.fits_result false true rfl) lane).of_marks rfl

theorem Site.closes_finish {s : Site} {job : Job} {host : String} {b : Nat} (hj : s.job? b = some job)
    (hh : job.holds = some host) (hv : job.outcome.cell.value = none) (lane : Lane) (succeeded : Bool) :
    ∃ result, (s.finish lane b succeeded).2 = .ok result ∧ Closes b s (s.finish lane b succeeded).1 result ∧
      (result.canceled = true ↔ s.IsCanceled b) ∧
      (result.succeeded = true ↔ succeeded = true ∧ result.canceled = false) ∧
      (result.succeeded = true → result.artifacts = job.artifacts) := by
  obtain ⟨-, rfl⟩ := Rows.mem_of_job? hj
  set v := verdict (s.isCanceled job) succeeded job.errors job.warnings with hverdict
  set result := job.result succeeded (s.isCanceled job) v.message with hresult
  have hrv : result.verdict = v := job.verdict_result _ _ _
  rw [finish_eq s lane hj hh hv succeeded hverdict.symm hresult.symm, ← hrv]
  set f := fun x : Job => ({ x with holds := none } : Job).ended result.verdict (job.outcome.written result)
  have hj' : ((s.update job.number f).setLock host (s.lock host).release).job? job.number = some (f job) :=
    job?_update_self (f := f) (fun _ => rfl) s _ hj
  have hfits : result.Fits job.number := job.fits_result _ _ rfl
  refine ⟨result, rfl, (Closes.publish hj' rfl rfl rfl rfl hfits lane).of_marks rfl, ?_, ?_, ?_⟩
  · simp [hresult, Job.result, IsCanceled, hj]
  · simp [hresult, Job.result]
  · intro h
    exact if_pos h

/-- A build is where it was; texts come from a running one. -/
structure Stays (b : Nat) (l l' : Ledger) : Prop where
  state : l'.site.state? b = l.site.state? b
  result : l'.site.result? b = l.site.result? b
  canceled : l.site.IsCanceled b → l'.site.IsCanceled b
  returned : ∀ started, l.Returned b started → l'.Returned b started
  ends : b ∈ l'.ends ↔ b ∈ l.ends
  story : ∃ texts : List String, l'.site.story b = l.site.story b ++ texts.map (.progress (idText b)) ∧
    (texts = [] ∨ l.site.state? b = some .running)

namespace Stays

variable {b : Nat} {l l' l'' : Ledger}

theorem refl (b : Nat) (l : Ledger) : Stays b l l :=
  ⟨rfl, rfl, id, fun _ => id, Iff.rfl, [], (List.append_nil _).symm, .inl rfl⟩

theorem trans (h : Stays b l l') (h' : Stays b l' l'') : Stays b l l'' := by
  obtain ⟨texts, hstory, hquiet⟩ := h.story
  obtain ⟨more, hmore, hquiet'⟩ := h'.story
  refine ⟨h'.state.trans h.state, h'.result.trans h.result, fun hc => h'.canceled (h.canceled hc),
    fun started hr => h'.returned started (h.returned started hr), h'.ends.trans h.ends, texts ++ more, ?_, ?_⟩
  · rw [hmore, hstory, List.map_append, List.append_assoc]
  · rw [h.state] at hquiet'
    rcases hquiet with rfl | hrun
    · exact hquiet'
    · exact .inr hrun

theorem story_eq (h : Stays b l l') (hb : l.site.state? b ≠ some .running) : l'.site.story b = l.site.story b := by
  obtain ⟨texts, hstory, hquiet⟩ := h.story
  rw [hstory, hquiet.resolve_right hb, List.map_nil, List.append_nil]

end Stays

/-- What a move, or some reports in a row, do to a build. -/
inductive Goes (b : Nat) (l l' : Ledger) : Prop where
  | stays (stays : Stays b l l')
  /-- There is the build now, or it is about to start, or it waits on. -/
  | nears (early : l.site.IsEarly b) (early' : l'.site.IsEarly b) (story : l'.site.story b = l.site.story b)
  | starts (message : String) (early : l.site.IsEarly b) (state : l'.site.state? b = some .running)
      (returned : l'.Returned b true) (story : l'.site.story b = l.site.story b ++ [.started (idText b) message])
  | closes (result : Result) (closes : Closes b l.site l'.site result)
      (story : l'.site.story b = l.site.story b ++ result.farewell)
      (way : l.site.state? b = some .running ∧ b ∈ l'.ends ∧ l'.Returned b true ∨
        l.site.IsEarly b ∧ b ∉ l'.ends ∧ result.canceled = true)

namespace Site

variable {s : Site} {b : Nat}

theorem isEarly_of_state? {st : State} (h : s.state? b = some st) (hst : st = .idle ∨ st = .waiting) :
    s.IsEarly b := by
  intro st' h'
  obtain rfl : st = st' := Option.some_inj.1 (h.symm.trans h')
  exact hst

theorem IsEarly.not_running (h : s.IsEarly b) : s.state? b ≠ some .running := by
  intro hs
  rcases h _ hs with he | he <;> cases he

theorem IsEarly.not_isFinal (h : s.IsEarly b) {st : State} (hs : s.state? b = some st) : st.isFinal = false := by
  rcases h st hs with rfl | rfl <;> rfl

theorem marks_run (s : Site) (lane : Lane) (job : Job) (r : Nat) :
    (s.run lane job r).marks job.number = s.marks job.number ++ [.started job.name job.startMessage] := by
  rw [run, marks_notify, publish, marks_notify]
  simp [Notice.mark?, Progress.id, Progress.isMark, Job.name, marks, update]

end Site

theorem Looks.outcome {l l' : Ledger} {b : Nat} (h : Looks l b l') :
    l'.site.IsEarly b ∧ l'.site.marks b = l.site.marks b ∨
      (l'.site.state? b = some .running ∧ l'.Returned b true ∧
        ∃ message, l'.site.marks b = l.site.marks b ++ [.started (idText b) message]) ∨
      ∃ result, Closes b l.site l'.site result ∧ result.canceled = true ∧ l'.ends = l.ends := by
  obtain @⟨s, lane, job, r, o, hk, hj, hs, hr⟩ := h
  have hv : job.outcome.cell.value = none :=
    (o.rows.sound job (Rows.mem_of_job? hj).1).value_eq_none (by rw [hs]; rfl)
  dsimp only
  cases hc : s.isCanceled job with
  | true =>
    rw [Site.look_of_isCanceled hv hc]
    exact .inr (.inr ⟨_, ((Site.closes_concludeCanceled hj hv hc lane).answer r false).of_marks hk.marks, rfl, rfl⟩)
  | false =>
    rw [Site.look_of_not_isCanceled hc]
    unfold Site.queue
    dsimp only
    obtain ⟨-, rfl⟩ := Rows.mem_of_job? hj
    split
    · refine .inr (.inl ⟨Site.state?_run (s := s.setLock _ _) hj _ _, ⟨r, hr, ?_⟩, job.startMessage, ?_⟩)
      · exact List.mem_append_right _ (List.mem_singleton_self _)
      · rw [Site.marks_run, ← hk.marks]
        rfl
    · have hwaiting : s.state? job.number = some .waiting := by rw [Site.state?_eq hj, hs]
      exact .inl ⟨Site.isEarly_of_state? hwaiting (.inr rfl), hk.marks⟩

namespace Orderly

variable {l : Ledger} {m : Move} {b : Nat}

theorem not_ended_of_live (o : Orderly l none none) {st : State} (hs : l.site.state? b = some st)
    (hf : st.isFinal = false) : b ∉ l.ends := by
  intro he
  obtain ⟨st', hs', hf'⟩ := o.answers.ended b he
  obtain rfl : st = st' := Option.some_inj.1 (hs.symm.trans hs')
  rw [hf] at hf'
  cases hf'

theorem ends_after (hm : ∀ lane succeeded, m ≠ .finish lane b succeeded) : b ∈ (l.after m).ends ↔ b ∈ l.ends := by
  cases m with
  | finish lane n succeeded =>
    have hne : b ≠ n := fun he => hm lane succeeded (by rw [he])
    exact List.mem_cons.trans (or_iff_right hne)
  | _ => exact Iff.rfl

theorem stays_of_isReport (o : Orderly l none none) (hr : m.isReport = true)
    (ht : ∀ lane text, m = .progress lane b text → l.site.state? b = some .running) : Stays b l (l.after m) := by
  have hk : Keeps b l.site (l.after m).site := by
    refine (o.touches fun _ _ _ _ h => by rw [h] at hr; cases hr).keeps ?_
    cases m with
    | progress lane n text | addErrors n k | addWarnings n k | store n artifacts =>
      intro h
      cases h
    | _ => cases hr
  have hreturned : ∀ started, l.Returned b started → (l.after m).Returned b started :=
    fun _ h => o.returned_after h m
  have hends : b ∈ (l.after m).ends ↔ b ∈ l.ends := ends_after fun _ _ h => by rw [h] at hr; cases hr
  cases m with
  | progress lane n text =>
    refine ⟨hk.state, hk.result, hk.canceled, hreturned, hends, if n = b then [text] else [], ?_, ?_⟩
    · change (l.site.progress lane n text).story b = _
      rw [Site.story_progress]
      split <;> rfl
    · by_cases h : n = b
      · exact .inr (ht lane text (by rw [h]))
      · exact .inl (if_neg h)
  | addErrors n k | addWarnings n k | store n artifacts =>
    exact ⟨hk.state, hk.result, hk.canceled, hreturned, hends, [], (List.append_nil _).symm, .inl rfl⟩
  | _ => cases hr

theorem goes_of_not_turn (o : Orderly l none none) (hr : m.isReport = false) (ht : m.turn? l.site ≠ some b) :
    Goes b l (l.after m) := by
  have hends : b ∈ (l.after m).ends ↔ b ∈ l.ends :=
    ends_after fun lane succeeded h => ht (by rw [h]; rfl)
  have hstays : Keeps b l.site (l.after m).site → Goes b l (l.after m) := by
    intro hk
    refine .stays ⟨hk.state, hk.result, hk.canceled, fun _ h => o.returned_after h m, hends, [], ?_, .inl rfl⟩
    exact o.story_after hr (hk.marks.trans (List.append_nil _).symm)
  by_cases hb : l.site.state? b = none
  · cases m with
    | create project task isTest parent =>
      obtain ⟨job, hidle, -, -, -, -, -, hjob⟩ := o.rows.job?_newJob project task isTest parent
      refine .nears (fun st hst => by rw [hb] at hst; cases hst) (fun st hst => ?_) rfl
      change ((l.site.newJob project task isTest parent).1.job? b).map Job.state = some st at hst
      rw [hjob] at hst
      split at hst
      · exact .inl ((Option.some_inj.1 hst).symm.trans hidle)
      · change l.site.state? b = some st at hst
        rw [hb] at hst
        cases hst
    | _ => exact hstays ((o.touches fun _ _ _ _ h => by cases h).keeps ht)
  · exact hstays (o.keeps hb ht)

theorem goes_of_looks (o : Orderly l none none) (hr : m.isReport = false) {l₀ : Ledger}
    (hmarks : l₀.site.marks b = l.site.marks b) (hends : l₀.ends = l.ends) (hearly : l.site.IsEarly b)
    (hopen : b ∉ l.ends) (hlook : Looks l₀ b (l.after m)) : Goes b l (l.after m) := by
  rcases hlook.outcome with ⟨hearly', hm'⟩ | ⟨hrun, hyes, message, hm'⟩ | ⟨result, hcloses, hc, he⟩
  · refine .nears hearly hearly' ?_
    exact (o.story_after hr (by rw [hm', hmarks, List.append_nil])).trans (List.append_nil _)
  · exact .starts message hearly hrun hyes (o.story_after hr (by rw [hm', hmarks]))
  · have hcloses' := hcloses.of_marks hmarks
    refine .closes result hcloses' (o.story_after hr hcloses'.marks) (.inr ⟨hearly, ?_, hc⟩)
    rw [he, hends]
    exact hopen

theorem closes_cancel (o : Orderly l none none) (hs : l.site.state? b = some .idle) (lane : Lane) :
    ∃ r, Closes b l.site (l.site.cancel lane b) r ∧ r.canceled = true := by
  obtain ⟨job, hj, hidle⟩ := Option.map_eq_some_iff.1 hs
  have hv : job.outcome.cell.value = none :=
    (o.rows.sound job (Rows.mem_of_job? hj).1).value_eq_none (by rw [hidle]; rfl)
  have hj' : (l.site.update b fun x => { x with isCanceled := true }).job? b =
      some { job with isCanceled := true } := by
    rw [Site.job?_update fun _ => by rfl, if_pos rfl, hj]
    rfl
  refine ⟨Site.canceledResult { job with isCanceled := true }, ?_, rfl⟩
  unfold Site.cancel
  simp only [hj', hidle, if_true]
  exact (Site.closes_concludeCanceled hj' hv (by simp [Site.isCanceled]) lane).of_marks rfl

theorem marks_take (o : Orderly l none none) {host : String} {t : Ticket} (hh : (l.site.lock host).handed = some t) :
    ∃ message, (l.after (.take host)).site.marks t.build =
      l.site.marks t.build ++ [.started (idText t.build) message] := by
  obtain ⟨-, -, job, hj, -⟩ := o.seated (mem_tickets_of_handed hh)
  obtain ⟨-, hnum⟩ := Rows.mem_of_job? hj
  refine ⟨job.startMessage, ?_⟩
  simp only [Ledger.after, Site.after, Site.take_eq hh hj]
  rw [← hnum, Site.marks_run]
  rfl

theorem goes_of_turn (o : Orderly l none none) (hm : l.Allows m) (hr : m.isReport = false)
    (ht : m.turn? l.site = some b) : Goes b l (l.after m) := by
  rcases o.turn_cases hm ht with ⟨hs, lane, rfl | rfl⟩ | ⟨hs, htake | hlook⟩ | ⟨hs, lane, succeeded, rfl⟩
  · refine o.goes_of_looks hr ?_ ?_ (Site.isEarly_of_state? hs (.inl rfl)) (o.not_ended_of_live hs rfl)
      (o.looks_of_start lane hs) <;> rfl
  · -- an idle build is canceled
    obtain ⟨r, hcloses, hc⟩ := o.closes_cancel hs lane
    exact .closes r hcloses (o.story_after hr hcloses.marks)
      (.inr ⟨Site.isEarly_of_state? hs (.inl rfl), o.not_ended_of_live hs rfl, hc⟩)
  · obtain ⟨hrun, hyes, -⟩ := o.started_of_takesFor htake
    cases m with
    | take host =>
      obtain ⟨t, hh, rfl⟩ := htake
      obtain ⟨message, hmarks⟩ := o.marks_take hh
      exact .starts message (Site.isEarly_of_state? hs (.inr rfl)) hrun hyes (o.story_after hr hmarks)
    | _ => exact htake.elim
  · exact o.goes_of_looks hr rfl rfl (Site.isEarly_of_state? hs (.inr rfl)) (o.not_ended_of_live hs rfl) hlook
  · -- a running build comes to its end
    obtain ⟨job, hj, hrun⟩ := Option.map_eq_some_iff.1 hs
    have hsound := o.rows.sound job (Rows.mem_of_job? hj).1
    obtain ⟨host, hh⟩ := Option.isSome_iff_exists.1 (hsound.running_iff.1 hrun)
    obtain ⟨result, -, hcloses, -⟩ := Site.closes_finish hj hh (hsound.value_eq_none (by rw [hrun]; rfl)) lane succeeded
    refine .closes result hcloses (o.story_after hr hcloses.marks) (.inl ⟨hs, List.mem_cons_self, ?_⟩)
    exact o.returned_after hm.1 _

/-- A move takes a build one step on, if no text is announced of a build that does not run. -/
theorem goes (o : Orderly l none none) (hm : l.Allows m)
    (ht : ∀ lane text, m = .progress lane b text → l.site.state? b = some .running) : Goes b l (l.after m) := by
  cases hr : m.isReport with
  | true => exact .stays (o.stays_of_isReport hr ht)
  | false =>
    by_cases hturn : m.turn? l.site = some b
    · exact o.goes_of_turn hm hr hturn
    · exact o.goes_of_not_turn hr hturn

end Orderly

/-- What is told of a build that runs: that it has started, and its texts. -/
def opening (b : Nat) (message : String) (texts : List String) : List Progress :=
  .started (idText b) message :: texts.map (.progress (idText b))

/-- A build has come to its end with a result: one that was finished has started before, and of one that was canceled
before that nothing else is told. -/
structure Ledger.Ended (l : Ledger) (b : Nat) (r : Result) : Prop where
  state : l.site.state? b = some r.verdict.state
  result : l.site.result? b = some r
  fits : r.Fits b
  story : b ∈ l.ends ∧ l.Returned b true ∧
      (∃ message texts, l.site.story b = opening b message texts ++ r.farewell) ∨
    b ∉ l.ends ∧ r.canceled = true ∧ l.site.story b = r.farewell

namespace Site

def IsFinal (s : Site) (b : Nat) : Prop :=
  ∃ st, s.state? b = some st ∧ st.isFinal = true

theorem IsFinal.not_early {s : Site} {b : Nat} (h : s.IsFinal b) : ¬ s.IsEarly b := by
  obtain ⟨st, hs, hf⟩ := h
  intro he
  rw [he.not_isFinal hs] at hf
  cases hf

theorem IsFinal.not_running {s : Site} {b : Nat} (h : s.IsFinal b) : s.state? b ≠ some .running := by
  obtain ⟨st, hs, hf⟩ := h
  intro hrun
  rw [hs] at hrun
  rw [Option.some_inj.1 hrun] at hf
  cases hf

end Site

namespace Goes

variable {l l' : Ledger} {b : Nat}

theorem stays_of_isFinal (h : Goes b l l') (hf : l.site.IsFinal b) : Stays b l l' := by
  cases h with
  | stays h => exact h
  | nears early _ _ | starts _ early _ _ _ => exact absurd early hf.not_early
  | closes _ _ _ way =>
    rcases way with ⟨hrun, -⟩ | ⟨early, -⟩
    · exact absurd hrun hf.not_running
    · exact absurd early hf.not_early

theorem stays_of_running (h : Goes b l l') (hrun : l.site.state? b = some .running) (hopen : b ∉ l'.ends) :
    Stays b l l' := by
  cases h with
  | stays h => exact h
  | nears early _ _ | starts _ early _ _ _ => exact absurd hrun early.not_running
  | closes _ _ _ way =>
    rcases way with ⟨-, hends, -⟩ | ⟨early, -⟩
    · exact absurd hends hopen
    · exact absurd hrun early.not_running

/-- What ends a build gives it its result. -/
theorem closes_of_isFinal (h : Goes b l l') (hb : ¬ l.site.IsFinal b) (hf : l'.site.IsFinal b) :
    ∃ result, Closes b l.site l'.site result := by
  cases h with
  | stays h =>
    obtain ⟨st, hs, hst⟩ := hf
    exact absurd ⟨st, h.state ▸ hs, hst⟩ hb
  | nears _ early' _ => exact absurd early' hf.not_early
  | starts _ _ state _ _ => exact absurd state hf.not_running
  | closes result closes _ _ => exact ⟨result, closes⟩

end Goes

namespace Ledger.Ended

variable {l l' : Ledger} {b : Nat} {r : Result}

theorem isFinal (h : l.Ended b r) : l.site.IsFinal b :=
  ⟨_, h.state, verdict_isFinal ..⟩

theorem stays (h : l.Ended b r) (hs : Stays b l l') : l'.Ended b r := by
  refine ⟨hs.state.trans h.state, hs.result.trans h.result, h.fits, ?_⟩
  rw [hs.story_eq h.isFinal.not_running, hs.ends]
  rcases h.story with ⟨he, hyes, hstory⟩ | hstory
  · exact .inl ⟨he, hs.returned true hyes, hstory⟩
  · exact .inr hstory

end Ledger.Ended

/-- What is told of a build goes with where it is. -/
structure Told (l : Ledger) (b : Nat) : Prop where
  early : l.site.IsEarly b → l.site.story b = []
  running : l.site.state? b = some .running →
    l.Returned b true ∧ ∃ message texts, l.site.story b = opening b message texts
  ended : l.site.IsFinal b → ∃ result, l.Ended b result

namespace Told

variable {l l' : Ledger} {b : Nat}

theorem start (b : Nat) : Told .start b := by
  refine ⟨fun _ => rfl, fun h => ?_, fun ⟨st, h, _⟩ => ?_⟩ <;> cases h

theorem stays (h : Told l b) (hs : Stays b l l') : Told l' b := by
  refine ⟨fun he => ?_, fun hrun => ?_, fun ⟨st, hst, hf⟩ => ?_⟩
  · have hearly : l.site.IsEarly b := fun st hst => he st (hs.state.trans hst)
    rw [hs.story_eq hearly.not_running, h.early hearly]
  · rw [hs.state] at hrun
    obtain ⟨hyes, message, before, hb⟩ := h.running hrun
    obtain ⟨texts, hstory, -⟩ := hs.story
    refine ⟨hs.returned true hyes, message, before ++ texts, ?_⟩
    rw [hstory, hb, opening, opening, List.map_append, List.cons_append]
  · rw [hs.state] at hst
    obtain ⟨r, hr⟩ := h.ended ⟨st, hst, hf⟩
    exact ⟨r, hr.stays hs⟩

/-- One step on, and what is told still goes with where the build is. -/
theorem goes (h : Told l b) (hg : Goes b l l') : Told l' b := by
  cases hg with
  | stays hs => exact h.stays hs
  | nears early early' story =>
    exact ⟨fun _ => story.trans (h.early early), fun hs => absurd hs early'.not_running,
      fun hf => absurd early' hf.not_early⟩
  | starts message early state returned story =>
    refine ⟨fun he => absurd state he.not_running, fun _ => ⟨returned, message, [], ?_⟩,
      fun hf => absurd state hf.not_running⟩
    rw [story, h.early early]
    rfl
  | closes result closes story way =>
    have hended : l'.Ended b result := by
      refine ⟨closes.state, closes.result, closes.fits, ?_⟩
      rcases way with ⟨hrun, hends, hyes⟩ | ⟨hearly, hopen, hc⟩
      · obtain ⟨-, message, texts, hb⟩ := h.running hrun
        exact .inl ⟨hends, hyes, message, texts, by rw [story, hb]⟩
      · exact .inr ⟨hopen, hc, by rw [story, h.early hearly, List.nil_append]⟩
    exact ⟨fun he => absurd he hended.isFinal.not_early, fun hs => absurd hs hended.isFinal.not_running,
      fun _ => ⟨result, hended⟩⟩

end Told

end CrateYard.Build
