import CrateYard.Proofs.Build.Permit
import CrateYard.Proofs.Build.Upkeep

/-! The answer of a run: the result of its build. Whether the process has succeeded is decided when it is waited for,
and whether the build is canceled once more when it is finished; the result holds both together, and an artifact only
of a build that has succeeded. -/

namespace CrateYard.Build

open Output (Event Stream Transcript)

namespace Steps

variable {errands : Nat → Errand} {w w' : Workshop} {b : Nat}

theorem exists_end (h : Steps errands w w') (hb : ¬ w.site.IsFinal b) (hf : w'.site.IsFinal b) :
    ∃ w₁ w₂, Steps errands w w₁ ∧ Step errands w₁ w₂ ∧ Steps errands w₂ w' ∧
      ¬ w₁.site.IsFinal b ∧ w₂.site.IsFinal b := by
  induction h with
  | refl => exact absurd hf hb
  | @tail x y h hstep ih =>
    by_cases hx : x.site.IsFinal b
    · obtain ⟨w₁, w₂, h₁, h₂, h₃, hb', hf'⟩ := ih hx
      exact ⟨w₁, w₂, h₁, h₂, h₃.snoc hstep, hb', hf'⟩
    · exact ⟨x, y, h, hstep, .refl y, hx, hf⟩

/-! A run whose start has been answered never gets stuck. -/

theorem exists_of_ending {succeeded : Bool} (hs : w.stage b = .ending succeeded) :
    ∃ w' answer, Steps errands w w' ∧ w'.stage b = .answered answer :=
  ⟨_, _, (refl w).snoc (.finish hs), Workshop.stage_turn_self ..⟩

theorem exists_of_drained {t : Transcript} {killed : Bool} {trace : Trace} (hs : w.stage b = .drained t killed)
    (hp : (errands b).process = .ok trace) : ∃ w' answer, Steps errands w w' ∧ w'.stage b = .answered answer := by
  cases hexit : trace.exit with
  | exited exit =>
    have hreap := (refl w).snoc (.reap exit hs hp fun _ => hexit)
    obtain ⟨w', answer, hend, ha⟩ : ∃ w' answer, Steps errands (w.work b _ _) w' ∧ w'.stage b = .answered answer :=
      exists_of_ending (w.stage_turn_self b _ _)
    exact ⟨w', answer, hreap.trans hend, ha⟩
  | lost message =>
    have hlose := (refl w).snoc (.lose message hs hp fun _ => hexit)
    obtain ⟨w', answer, hend, ha⟩ : ∃ w' answer, Steps errands (w.turn b _ _) w' ∧ w'.stage b = .answered answer :=
      exists_of_ending (w.stage_turn_self b _ _)
    exact ⟨w', answer, hlose.trans hend, ha⟩

theorem exists_of_reading {t : Transcript} {rest : List (Stream × List UInt8)} {trace : Trace}
    (hs : w.stage b = .reading t rest) (hp : (errands b).process = .ok trace) :
    ∃ w' answer, Steps errands w w' ∧ w'.stage b = .answered answer := by
  have hread : Steps errands w _ := readChunks hs
  have hstop := hread.snoc (.stop false (w.stage_turn_self b _ _) rfl)
  obtain ⟨w', answer, hend, ha⟩ := exists_of_drained (Workshop.stage_turn_self ..) hp
  exact ⟨w', answer, hstop.trans hend, ha⟩

theorem exists_answered (h : Steps errands .start w) {started : Bool} (hr : w.ledger.Returned b started) :
    ∃ w' answer, Steps errands w w' ∧ w'.stage b = .answered answer := by
  have hstaged := h.kept.staged b
  cases hs : w.stage b with
  | fresh =>
    rw [hs] at hstaged
    obtain ⟨r, hstart, -⟩ := hr
    exact absurd hstart (hstaged.1 r)
  | asked =>
    cases started with
    | true => exact ⟨_, _, conduct hs hr, Workshop.stage_turn_self ..⟩
    | false =>
      have hno := hr
      obtain ⟨r, hstart, hanswer⟩ := hno
      obtain ⟨result, hended⟩ := (h.kept.told b).ended ⟨_, (h.kept.order.answers.no b r hstart hanswer).1, rfl⟩
      exact ⟨_, _, (refl w).snoc (.leave hs hr hended.result), Workshop.stage_turn_self ..⟩
  | reading t rest =>
    rw [hs] at hstaged
    obtain ⟨-, trace, -, hp, -⟩ := hstaged
    exact exists_of_reading hs hp
  | drained t killed =>
    rw [hs] at hstaged
    obtain ⟨-, trace, hp, -⟩ := hstaged
    exact exists_of_drained hs hp
  | ending succeeded => exact exists_of_ending hs
  | answered answer => exact ⟨w, answer, refl w, hs⟩

theorem canceled_iff {w₁ w₂ : Workshop} {r : Result} (h : Steps errands .start w₁) (hstep : Step errands w₁ w₂)
    (h' : Steps errands w₂ w) (hb : ¬ w₁.site.IsFinal b) (hf : w₂.site.IsFinal b) (hr : w.site.result? b = some r) :
    r.canceled = true ↔ w₂.site.IsCanceled b := by
  obtain ⟨hkept, hgoes⟩ := hstep.kept h.kept
  obtain ⟨r', hcloses⟩ := (hgoes b).closes_of_isFinal hb hf
  have hsame : w.site.result? b = w₂.site.result? b := (h'.stays_of_isFinal hkept hf).result
  obtain rfl : r' = r := Option.some_inj.1 (hcloses.result.symm.trans (hsame.symm.trans hr))
  exact hcloses.canceled

end Steps

def Cancellation.kills (c : Cancellation) (p : Process) : Bool :=
  match c with
  | .after ms => ms < p.duration
  | _ => false

/-- What a lone run is given. -/
def Errand.ofMachine (m : Machine) (lane : Lane) (command : Command) (c : Cancellation) : Errand :=
  ⟨lane, command.program, (m.spawn command).map fun (_, p) => .ofProcess p (c.kills p)⟩

section Lone

variable (project : Project) (task : String) (isTest : Bool) (c : Cancellation)

/-- The build of a lone run, canceled already where that comes first. -/
def loneSite : Site :=
  let created := (Site.start.newJob project task isTest (some outerToken)).1
  if c = .before then created.cancelToken outerToken else created

def loneAsked (lane : Lane) : Workshop :=
  (Workshop.mk ⟨loneSite project task isTest c, [], []⟩ fun _ => .fresh).turn 1
    ((⟨loneSite project task isTest c, [], []⟩ : Ledger).after (.start lane 1)) .asked

theorem steps_loneAsked (e : Errand) : Steps (fun _ => e) .start (loneAsked project task isTest c e.lane) := by
  have hstart : Steps (fun _ => e) .start .start := Steps.refl _
  have hcreate := hstart.snoc (.around (m := .create project task isTest (some outerToken)) rfl)
  have hopened : Steps (fun _ => e) .start ⟨⟨loneSite project task isTest c, [], []⟩, fun _ => .fresh⟩ := by
    by_cases hc : c = .before
    · simp only [loneSite, hc, if_true]
      exact hcreate.snoc (.around (m := .cancelToken outerToken) rfl)
    · simp only [loneSite, hc, if_false]
      exact hcreate
  have hjob : ((loneSite project task isTest c).job? 1).isSome := by
    simp only [loneSite]
    split <;> rfl
  exact hopened.snoc (.ask (b := 1) rfl hjob)

theorem exists_steps_conduct (e : Errand) (killed : Bool)
    (hrun : (loneAsked project task isTest c e.lane).site.state? 1 = some .running) :
    let s := (loneAsked project task isTest c e.lane).site
    ∃ w, Steps (fun _ => e) .start w ∧
      w.site = ((if killed then s.cancelToken outerToken else s).conduct e.lane 1 e.program e.process).1 := by
  have hasked := steps_loneAsked project task isTest c e
  have hyes := ((hasked.kept.told 1).running hrun).1
  have hstage : (loneAsked project task isTest c e.lane).stage 1 = .asked := Workshop.stage_turn_self ..
  cases killed with
  | true =>
    have hsignal := hasked.snoc (.around (m := .cancelToken outerToken) rfl)
    exact ⟨_, hsignal.trans (Steps.conduct hstage hyes), rfl⟩
  | false => exact ⟨_, hasked.trans (Steps.conduct hstage hyes), rfl⟩

theorem site_run (m : Machine) (lane : Lane) (command : Command) :
    let s := (loneAsked project task isTest c lane).site
    (run m lane project task isTest command c).site = if s.state? 1 = some .running then
      ((if (m.spawn command).toOption.any (fun found => c.kills found.2) then s.cancelToken outerToken else s).conduct
        lane 1 command.program (Errand.ofMachine m lane command c).process).1 else s := by
  intro s
  have hstate : (s.job? 1).any (fun x => x.state = .running) = true ↔ s.state? 1 = some .running := by
    rw [Site.state?]
    cases s.job? 1 <;> simp
  unfold run
  change (if (s.job? 1).any (fun x => x.state = .running) = true then _ else _ : Run).site = _
  by_cases hrun : s.state? 1 = some .running
  · rw [if_pos hrun, if_pos (hstate.2 hrun), Errand.ofMachine]
    cases m.spawn command <;> rfl
  · rw [if_neg hrun, if_neg (hrun ∘ hstate.1)]
    rfl

/-- A lone run is one of the executions. -/
theorem steps_run (m : Machine) (lane : Lane) (command : Command) :
    ∃ w, Steps (fun _ => .ofMachine m lane command c) .start w ∧
      w.site = (run m lane project task isTest command c).site := by
  rw [site_run]
  split
  · next hrun => exact exists_steps_conduct project task isTest c (.ofMachine m lane command c) _ hrun
  · exact ⟨_, steps_loneAsked project task isTest c (.ofMachine m lane command c), rfl⟩

end Lone

theorem Orderly.not_owns_of_isFinal {l : Ledger} (o : Orderly l none none) {b : Nat} (hf : l.site.IsFinal b) {job : Job}
    (hj : l.site.job? b = some job) : job.holds = none ∧ ∀ host, l.site.Owns host job = false := by
  obtain ⟨hmem, -⟩ := Rows.mem_of_job? hj
  obtain ⟨st, hs, hst⟩ := hf
  obtain rfl : job.state = st := Option.some_inj.1 ((Site.state?_eq hj).symm.trans hs)
  have hnone : job.holds = none := (o.rows.sound job hmem).holds_eq_none fun he => by rw [he] at hst; cases hst
  refine ⟨hnone, fun host => ?_⟩
  by_contra hown
  rcases o.holds_or_waits hmem (by simpa using hown) with hh | hw
  · rw [hnone] at hh
    cases hh
  · rw [hw] at hst
    cases hst

/-- Whatever its process does and whenever it is canceled, a run whose start has been answered can always go on to its
own answer, and that is the result of its build. It says canceled exactly if the build was when it came to its end, and
succeeded exactly if the build was started, its process exited with success and it is not canceled. Only then does it
list artifacts: for each target that was reported one, the last that was. The message is that of the flags and the
counters, and the build has no permit any more. -/
theorem answer_of_steps {errands : Nat → Errand} {w : Workshop} (h : Steps errands .start w) (b : Nat) :
    (∀ started, w.ledger.Returned b started → ∃ w' answer, Steps errands w w' ∧ w'.stage b = .answered answer) ∧
    ∀ answer, w.stage b = .answered answer → ∃ r, answer = .ok r ∧ w.site.result? b = some r ∧
      (∃ w₁ w₂, Steps errands .start w₁ ∧ Step errands w₁ w₂ ∧ Steps errands w₂ w ∧
        ¬ w₁.site.IsFinal b ∧ w₂.site.IsFinal b) ∧
      (∀ w₁ w₂, Steps errands .start w₁ → Step errands w₁ w₂ → Steps errands w₂ w →
        ¬ w₁.site.IsFinal b → w₂.site.IsFinal b → (r.canceled = true ↔ w₂.site.IsCanceled b)) ∧
      (r.succeeded = true ↔ w.ledger.Returned b true ∧
        (∃ trace, (errands b).process = .ok trace ∧ trace.exit.isSuccess = true) ∧ r.canceled = false) ∧
      (r.succeeded = false → r.artifacts = []) ∧
      (r.succeeded = true → ∃ trace, (errands b).process = .ok trace ∧
        ∀ k, (r.artifacts.filter fun a => a.target = k) =
          ((Transcript.start.run trace.reads).2.filterMap (Event.artifactOf? k)).getLast?.toList) ∧
      r.message = (verdict r.canceled r.succeeded r.errors r.warnings).message ∧
      ∀ job, w.site.job? b = some job → job.holds = none ∧ ∀ host, w.site.Owns host job = false := by
  refine ⟨fun _ hr => h.exists_answered hr, fun answer hanswered => ?_⟩
  have hkept := h.kept
  have hstaged := hkept.staged b
  rw [hanswered] at hstaged
  obtain ⟨r, rfl, hended, hhonors⟩ := hstaged
  have hstart : ¬ Workshop.start.site.IsFinal b := by
    rintro ⟨st, hs, -⟩
    cases hs
  refine ⟨r, rfl, hended.result, h.exists_end hstart hended.isFinal, ?_, ?_, hended.fits.bare, ?_, hended.fits.message,
    fun job hj => hkept.order.not_owns_of_isFinal hended.isFinal hj⟩
  · intro w₁ w₂ h₁ h₂ h₃ hb hf
    exact Steps.canceled_iff h₁ h₂ h₃ hb hf hended.result
  · rcases hended.story with ⟨hends, hyes, -⟩ | ⟨hopen, hc, -⟩
    · rw [(hhonors hends).succeeded]
      exact (and_iff_right hyes).symm
    · -- a build that was canceled before it was started
      have hno : r.succeeded ≠ true := fun hs => hended.fits.apart ⟨hs, hc⟩
      exact iff_of_false hno fun hall => by simp [hc] at hall
  · intro hs
    rcases hended.story with ⟨hends, -⟩ | ⟨-, hc, -⟩
    · obtain ⟨trace, hp, hartifacts⟩ := (hhonors hends).artifacts hs
      refine ⟨trace, hp, fun k => ?_⟩
      rw [hartifacts]
      exact Transcript.filter_listed_run trace.reads k
    · exact absurd ⟨hs, hc⟩ hended.fits.apart

/-- A build whose process reports an artifact and an error, and exits with success. -/
theorem answer_of_steps_app :
    let reads := Transcript.inPieces
    Steps (fun _ => soleErrand reads) .start (soleAnswered reads) ∧
      ∃ r, (soleAnswered reads).stage 1 = .answered (.ok r) ∧ r.succeeded = true ∧ r.canceled = false ∧
        (r.artifacts.filter fun a => a.target = Transcript.appArtifact.target) = [Transcript.appArtifact] := by
  intro reads
  have hsteps := steps_soleAnswered reads
  have hanswered : (soleAnswered reads).stage 1 = .answered (soleConduct reads).2 := Workshop.stage_turn_self ..
  have hflags : (soleConduct reads).2.toOption.map (fun r => (r.succeeded, r.canceled)) = some (true, false) := by
    decide +kernel
  have hreported : (Transcript.start.run reads).2.filterMap (Event.artifactOf? Transcript.appArtifact.target) =
      [Transcript.appArtifact] := by
    decide +kernel
  obtain ⟨r, hanswer, -, -, -, -, -, hartifacts, -⟩ := (answer_of_steps hsteps 1).2 _ hanswered
  rw [hanswer] at hanswered hflags
  obtain ⟨hsucceeded, hcanceled⟩ : r.succeeded = true ∧ r.canceled = false := by
    simpa [Except.toOption] using hflags
  obtain ⟨trace, hp, hlisted⟩ := hartifacts hsucceeded
  obtain rfl : ⟨reads, .exited (.code 0)⟩ = trace := Except.ok.inj hp
  refine ⟨hsteps, r, hanswered, hsucceeded, hcanceled, ?_⟩
  rw [hlisted, hreported]
  rfl

end CrateYard.Build
