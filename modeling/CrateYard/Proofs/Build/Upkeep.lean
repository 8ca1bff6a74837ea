import CrateYard.Proofs.Build.Workshop

/-! What holds between any two steps of runs. A step leaves every build but its own where it was in its run; so the
invariant has a part for each stage of a run, and a step has to be shown to lead from the part of its stage to that of
the next. -/

namespace CrateYard.Build

open Output (Artifact Event Stream Transcript)

def Trace.artifacts (trace : Trace) : List Artifact :=
  Artifact.listed (Transcript.start.run trace.reads).1.artifacts.values

def Errand.ExitsWell (e : Errand) : Prop :=
  ∃ trace, e.process = .ok trace ∧ trace.exit.isSuccess = true

/-- What the result of a build that was started says of its process. -/
structure Result.Honors (r : Result) (e : Errand) : Prop where
  succeeded : r.succeeded = true ↔ e.ExitsWell ∧ r.canceled = false
  artifacts : r.succeeded = true → ∃ trace, e.process = .ok trace ∧ r.artifacts = trace.artifacts

def Ledger.IsUnderway (l : Ledger) (b : Nat) : Prop :=
  l.Returned b true ∧ b ∉ l.ends

/-- What holds of a build whose run is at some stage. -/
def Staged (e : Errand) (l : Ledger) (b : Nat) : Stage → Prop
  | .fresh => (∀ r, (b, r) ∉ l.starts) ∧ b ∉ l.ends
  | .asked => b ∉ l.ends
  | .reading t rest => l.IsUnderway b ∧
      ∃ trace before, e.process = .ok trace ∧ trace.reads = before ++ rest ∧ t = Transcript.start.readAll before
  | .drained t killed => l.IsUnderway b ∧ ∃ trace, e.process = .ok trace ∧
      if killed then l.site.IsCanceled b else t = (Transcript.start.run trace.reads).1
  | .ending succeeded => l.IsUnderway b ∧
      if succeeded then ∃ trace, e.process = .ok trace ∧ trace.exit.isSuccess = true ∧
        l.site.artifacts? b = some trace.artifacts
      else l.site.IsCanceled b ∨ ¬ e.ExitsWell
  | .answered answer => ∃ r, answer = .ok r ∧ l.Ended b r ∧ (b ∈ l.ends → r.Honors e)

/-- A step is not one of this build's run. -/
structure Spares (b : Nat) (l l' : Ledger) : Prop where
  goes : Goes b l l'
  starts : ∀ r, (b, r) ∈ l'.starts → (b, r) ∈ l.starts
  ends : b ∈ l'.ends → b ∈ l.ends
  artifacts : l.site.state? b ≠ none → l'.site.artifacts? b = l.site.artifacts? b

namespace Spares

variable {l l' : Ledger} {b : Nat}

theorem refl (b : Nat) (l : Ledger) : Spares b l l :=
  ⟨.stays (.refl b l), fun _ => id, id, fun _ => rfl⟩

theorem stays (h : Spares b l l') (hrun : l.site.state? b = some .running) (hopen : b ∉ l.ends) : Stays b l l' :=
  h.goes.stays_of_running hrun fun he => hopen (h.ends he)

end Spares

theorem Orderly.running (o : Orderly l none none) {b : Nat} (h : l.IsUnderway b) :
    l.site.state? b = some .running := by
  obtain ⟨⟨r, hr, hyes⟩, hopen⟩ := h
  exact (o.answers.yes b r hr hyes).resolve_right hopen

/-- A run is where it was after the step of another. -/
theorem Staged.spared {e : Errand} {l l' : Ledger} {b : Nat} {stage : Stage} (h : Staged e l b stage)
    (o : Orderly l none none) (hs : Spares b l l') : Staged e l' b stage := by
  have hunderway : l.IsUnderway b → Stays b l l' ∧ l'.IsUnderway b := by
    intro hu
    have hstays := hs.stays (o.running hu) hu.2
    exact ⟨hstays, hstays.returned true hu.1, fun he => hu.2 (hs.ends he)⟩
  cases stage with
  | fresh => exact ⟨fun r hr => h.1 r (hs.starts r hr), fun he => h.2 (hs.ends he)⟩
  | asked => exact fun he => h (hs.ends he)
  | reading t rest => exact ⟨(hunderway h.1).2, h.2⟩
  | drained t killed =>
    obtain ⟨hu, trace, hp, hkilled⟩ := h
    obtain ⟨hstays, hu'⟩ := hunderway hu
    refine ⟨hu', trace, hp, ?_⟩
    cases killed with
    | true => exact hstays.canceled hkilled
    | false => exact hkilled
  | ending succeeded =>
    obtain ⟨hu, hend⟩ := h
    obtain ⟨hstays, hu'⟩ := hunderway hu
    refine ⟨hu', ?_⟩
    cases succeeded with
    | true =>
      obtain ⟨trace, hp, hexit, hstored⟩ := hend
      exact ⟨trace, hp, hexit, (hs.artifacts (by simp [o.running hu])).trans hstored⟩
    | false => exact hend.imp_left hstays.canceled
  | answered answer =>
    obtain ⟨r, ha, hended, hhonors⟩ := h
    exact ⟨r, ha, hended.stays (hs.goes.stays_of_isFinal hended.isFinal), fun he => hhonors (hs.ends he)⟩

/-- The build whose run makes a move, if one does. -/
def Move.owner? : Move → Option Nat
  | .start _ build | .finish _ build _ | .store build _ => some build
  | _ => none

/-- What a step does to the ledger; `owner` is the build whose run goes on, where that shows. -/
structure Moves (owner : Option Nat) (l l' : Ledger) : Prop where
  order : Orderly l' none none
  goes : ∀ b, Goes b l l'
  spares : ∀ b, owner ≠ some b → Spares b l l'

namespace Orderly

variable {l : Ledger} {m : Move}

theorem starts_after {b r : Nat} (hm : ∀ lane, m ≠ .start lane b) (h : (b, r) ∈ (l.after m).starts) :
    (b, r) ∈ l.starts := by
  cases m with
  | start lane n =>
    have hne : b ≠ n := fun he => hm lane (by rw [he])
    change (b, r) ∈ l.noteStart n at h
    obtain ⟨-, hstarts⟩ | ⟨r', -, hstarts⟩ := l.noteStart_cases n
    · rw [hstarts] at h
      exact (List.mem_cons.1 h).resolve_left fun he => hne (Prod.mk.inj he).1
    · rwa [hstarts] at h
  | _ => exact h

theorem artifacts?_of_isReport {b : Nat} (hr : m.isReport = true) (hm : m.owner? ≠ some b) (s : Site) :
    (s.after m).artifacts? b = s.artifacts? b := by
  cases m with
  | progress lane n text => rfl
  | addErrors n k | addWarnings n k => exact (Tacit.update s n (fun _ => by rfl) fun _ => by rfl).artifacts b
  | store n artifacts =>
    have hne : b ≠ n := fun he => hm (by rw [he]; rfl)
    have hj : (s.after (.store n artifacts)).job? b = s.job? b := by
      change (s.update n _).job? b = _
      rw [Site.job?_update fun _ => by rfl, if_neg hne]
    rw [Site.artifacts?, hj]
    rfl
  | _ => cases hr

theorem moves (o : Orderly l none none) (hm : l.Allows m)
    (ht : ∀ b lane text, m = .progress lane b text → l.site.state? b = some .running) :
    Moves m.owner? l (l.after m) := by
  refine ⟨o.after hm, fun b => o.goes hm (ht b), fun b hb => ⟨o.goes hm (ht b), fun r => ?_, ?_, fun hthere => ?_⟩⟩
  · exact starts_after fun lane he => hb (by rw [he]; rfl)
  · exact (ends_after fun lane succeeded he => hb (by rw [he]; rfl)).1
  · cases hr : m.isReport with
    | true => exact artifacts?_of_isReport hr hb l.site
    | false => exact o.artifacts?_after hr hthere

end Orderly

theorem Site.reportAll_induction {P : Site → Prop} {lane : Lane} {b : Nat}
    (progress : ∀ s text, P s → P (s.progress lane b text)) (errors : ∀ s, P s → P (s.addErrors b 1))
    (warnings : ∀ s, P s → P (s.addWarnings b 1)) {s : Site} (h : P s) (events : List Event) :
    P (s.reportAll lane b events) := by
  induction events generalizing s with
  | nil => exact h
  | cons event rest ih =>
    apply ih
    cases event with
    | output text => exact progress s text h
    | diagnostic d =>
      unfold Site.report
      dsimp only
      cases d.level with
      | error =>
        cases d.rendered with
        | none => exact errors s h
        | some rendered => exact progress _ _ (errors s h)
      | warning =>
        cases d.rendered with
        | none => exact warnings s h
        | some rendered => exact progress _ _ (warnings s h)
    | _ => exact h

/-- A ledger of which only the reports of running builds are new. -/
structure Reported (l l' : Ledger) : Prop where
  order : Orderly l' none none
  stays : ∀ b, Stays b l l'
  artifacts : ∀ b, l'.site.artifacts? b = l.site.artifacts? b
  starts : l'.starts = l.starts
  ends : l'.ends = l.ends

namespace Reported

variable {l l' : Ledger}

theorem refl (o : Orderly l none none) : Reported l l :=
  ⟨o, fun b => .refl b l, fun _ => rfl, rfl, rfl⟩

theorem snoc (h : Reported l l') {m : Move} (hr : m.isReport = true) (hm : m.owner? = none)
    (ht : ∀ b lane text, m = .progress lane b text → l.site.state? b = some .running) : Reported l (l'.after m) := by
  have hstays : ∀ b, Stays b l' (l'.after m) := fun b =>
    h.order.stays_of_isReport hr fun lane text he => (h.stays b).state.trans (ht b lane text he)
  have hallows : l'.Allows m := by
    cases m with
    | start lane n | finish lane n succeeded => cases hr
    | _ => trivial
  refine ⟨h.order.after hallows, fun b => (h.stays b).trans (hstays b), fun b => ?_, ?_, ?_⟩
  · exact (Orderly.artifacts?_of_isReport hr (by rw [hm]; simp) l'.site).trans (h.artifacts b)
  · cases m with
    | start lane n => cases hr
    | _ => exact h.starts
  · cases m with
    | finish lane n succeeded => cases hr
    | _ => exact h.ends

theorem moves (h : Reported l l') : Moves none l l' := by
  refine ⟨h.order, fun b => .stays (h.stays b), fun b _ => ⟨.stays (h.stays b), fun r hr => ?_, fun he => ?_, ?_⟩⟩
  · rwa [h.starts] at hr
  · rwa [h.ends] at he
  · exact fun _ => h.artifacts b

theorem reportAll (o : Orderly l none none) {b : Nat} (hb : l.site.state? b = some .running) (lane : Lane)
    (events : List Event) : Reported l ⟨l.site.reportAll lane b events, l.starts, l.ends⟩ := by
  refine Site.reportAll_induction (P := fun s => Reported l ⟨s, l.starts, l.ends⟩) ?_ ?_ ?_ (refl o) events
  · intro s text h
    refine h.snoc (m := .progress lane b text) rfl rfl fun n lane' text' he => ?_
    cases he
    exact hb
  · intro s h
    exact h.snoc (m := .addErrors b 1) rfl rfl fun _ _ _ he => by cases he
  · intro s h
    exact h.snoc (m := .addWarnings b 1) rfl rfl fun _ _ _ he => by cases he

end Reported

theorem Orderly.moves_signal {l : Ledger} (o : Orderly l none none) (b : Nat) :
    Moves none l ⟨l.site.signal b, l.starts, l.ends⟩ := by
  have hk : ∀ n, Keeps n l.site (l.site.signal b) := fun n =>
    .update l.site b (fun _ => by rfl) (fun _ => by rfl) (fun _ => by rfl) (fun _ => by rfl) fun _ _ => by rfl
  have hstays : ∀ n, Stays n l ⟨l.site.signal b, l.starts, l.ends⟩ := fun n =>
    ⟨(hk n).state, (hk n).result, (hk n).canceled, fun _ h => h, Iff.rfl, [], (List.append_nil _).symm, .inl rfl⟩
  have htacit : Tacit l.site (l.site.signal b) := .update l.site b (fun _ => by rfl) fun _ => by rfl
  exact ⟨o.update (fun _ => by rfl) (fun _ => by rfl) (fun _ => by rfl) (fun _ => by rfl) b,
    fun n => .stays (hstays n), fun n _ => ⟨.stays (hstays n), fun _ => id, id, fun _ => htacit.artifacts n⟩⟩

theorem Orderly.moves_refl {l : Ledger} (o : Orderly l none none) : Moves none l l :=
  (Reported.refl o).moves

/-- What holds between two steps. -/
structure Kept (errands : Nat → Errand) (w : Workshop) : Prop where
  order : Orderly w.ledger none none
  told : ∀ b, Told w.ledger b
  staged : ∀ b, Staged (errands b) w.ledger b (w.stage b)

namespace Kept

variable {errands : Nat → Errand} {w w' : Workshop} {b : Nat} {l' : Ledger} {owner : Option Nat}

theorem start (errands : Nat → Errand) : Kept errands .start := by
  refine ⟨.start, Told.start, fun b => ⟨fun r hr => ?_, fun he => ?_⟩⟩
  · cases hr
  · cases he

theorem around (h : Kept errands w) (hm : Moves none w.ledger l') : Kept errands ⟨l', w.stage⟩ :=
  ⟨hm.order, fun b => (h.told b).goes (hm.goes b),
    fun b => (h.staged b).spared h.order (hm.spares b (by simp))⟩

theorem turn {stage : Stage} (h : Kept errands w) (hm : Moves owner w.ledger l') (ho : ∀ n, owner = some n → n = b)
    (hs : Staged (errands b) l' b stage) : Kept errands (w.turn b l' stage) := by
  refine ⟨hm.order, fun n => (h.told n).goes (hm.goes n), fun n => ?_⟩
  by_cases hn : n = b
  · subst hn
    rw [Workshop.stage_turn_self]
    exact hs
  · rw [w.stage_turn_ne hn]
    exact (h.staged n).spared h.order (hm.spares n fun he => hn (ho n he))

theorem underway (h : Kept errands w) (hu : w.ledger.IsUnderway b) (hm : Moves owner w.ledger l') (hopen : b ∉ l'.ends) :
    Stays b w.ledger l' ∧ l'.IsUnderway b := by
  have hstays : Stays b w.ledger l' := (hm.goes b).stays_of_running (h.order.running hu) hopen
  exact ⟨hstays, hstays.returned true hu.1, hopen⟩

theorem staged_leave (h : Kept errands w) (hs : w.stage b = .asked) {result : Result}
    (hno : w.ledger.Returned b false) (hr : w.site.result? b = some result) :
    Staged (errands b) w.ledger b (.answered (.ok result)) := by
  obtain ⟨r, hstart, hanswer⟩ := hno
  have hrefused := h.order.answers.no b r hstart hanswer
  obtain ⟨result', hended⟩ := (h.told b).ended ⟨_, hrefused.1, rfl⟩
  obtain rfl : result = result' := Option.some_inj.1 (hr.symm.trans hended.result)
  have hopen := h.staged b
  rw [hs] at hopen
  exact ⟨result, rfl, hended, fun he => absurd he hopen⟩

/-- A build of which it is told why its process was not seen to end has failed, or is canceled. -/
theorem staged_failure (h : Kept errands w) (hu : w.ledger.IsUnderway b) (message : String)
    (hfailed : w.site.IsCanceled b ∨ ¬ (errands b).ExitsWell) :
    let l' := w.ledger.after (.progress (errands b).lane b (failure (errands b).program message))
    Moves none w.ledger l' ∧ Staged (errands b) l' b (.ending false) := by
  have hmoves := h.order.moves (m := .progress (errands b).lane b (failure (errands b).program message)) trivial
    fun n lane text he => by cases he; exact h.order.running hu
  obtain ⟨hstays, hu'⟩ := h.underway hu hmoves hu.2
  exact ⟨hmoves, hu', hfailed.imp_left hstays.canceled⟩

theorem staged_fail (h : Kept errands w) {e : SpawnError} (hs : w.stage b = .asked)
    (hyes : w.ledger.Returned b true) (hp : (errands b).process = .error e) :
    let l' := w.ledger.after (.progress (errands b).lane b (failure (errands b).program e.message))
    Moves none w.ledger l' ∧ Staged (errands b) l' b (.ending false) := by
  have hopen := h.staged b
  rw [hs] at hopen
  refine h.staged_failure ⟨hyes, hopen⟩ e.message (.inr ?_)
  rintro ⟨trace, hp', -⟩
  rw [hp] at hp'
  cases hp'

theorem staged_lose (h : Kept errands w) {t : Transcript} {killed : Bool} {trace : Trace} {message : String}
    (hs : w.stage b = .drained t killed) (hp : (errands b).process = .ok trace)
    (hlost : killed = false → trace.exit = .lost message) :
    let l' := w.ledger.after (.progress (errands b).lane b (failure (errands b).program message))
    Moves none w.ledger l' ∧ Staged (errands b) l' b (.ending false) := by
  have hdrained := h.staged b
  rw [hs] at hdrained
  obtain ⟨hu, _, -, hkilled⟩ := hdrained
  refine h.staged_failure hu message ?_
  cases killed with
  | true => exact .inl hkilled
  | false =>
    right
    rintro ⟨trace', hp', hwell⟩
    obtain rfl : trace = trace' := Except.ok.inj (hp.symm.trans hp')
    rw [hlost rfl] at hwell
    cases hwell

theorem staged_stop (h : Kept errands w) {t : Transcript} {rest : List (Stream × List UInt8)} {killed : Bool}
    (hs : w.stage b = .reading t rest) (hwhy : if killed then w.site.IsCanceled b else rest = []) :
    Moves none w.ledger ⟨w.site.reportAll (errands b).lane b t.close.2, w.ledger.starts, w.ledger.ends⟩ ∧
      Staged (errands b) ⟨w.site.reportAll (errands b).lane b t.close.2, w.ledger.starts, w.ledger.ends⟩ b
        (.drained t.close.1 killed) := by
  have hreading := h.staged b
  rw [hs] at hreading
  obtain ⟨hu, trace, before, hp, hreads, rfl⟩ := hreading
  have hm := (Reported.reportAll h.order (h.order.running hu) (errands b).lane
    (Transcript.start.readAll before).close.2).moves
  obtain ⟨hstays, hu'⟩ := h.underway hu hm hu.2
  refine ⟨hm, hu', trace, hp, ?_⟩
  cases killed with
  | true => exact hstays.canceled hwhy
  | false =>
    obtain rfl : rest = [] := hwhy
    rw [List.append_nil] at hreads
    change (Transcript.start.readAll before).close.1 = _
    rw [hreads, Transcript.run_fst_eq_close]

theorem staged_read (h : Kept errands w) {t : Transcript} {read : Stream × List UInt8}
    {rest : List (Stream × List UInt8)} (hs : w.stage b = .reading t (read :: rest)) :
    Moves none w.ledger ⟨(w.site.readChunk (errands b).lane b t read).1, w.ledger.starts, w.ledger.ends⟩ ∧
      Staged (errands b) ⟨(w.site.readChunk (errands b).lane b t read).1, w.ledger.starts, w.ledger.ends⟩ b
        (.reading (w.site.readChunk (errands b).lane b t read).2 rest) := by
  have hreading := h.staged b
  rw [hs] at hreading
  obtain ⟨hu, trace, before, hp, hreads, rfl⟩ := hreading
  have hm := (Reported.reportAll h.order (h.order.running hu) (errands b).lane
    ((Transcript.start.readAll before).readChunk read.1 read.2).2).moves
  refine ⟨hm, (h.underway hu hm hu.2).2, trace, before ++ [read], hp, ?_, ?_⟩
  · rw [hreads, List.append_assoc, List.singleton_append]
  · rw [Transcript.readAll_concat]
    rfl

theorem artifacts?_complete {trace : Trace} {exit : Exit} (h : Kept errands w) (hu : w.ledger.IsUnderway b)
    (hyes : (w.site.complete b (Transcript.start.run trace.reads).1 exit).2 = true) :
    (w.site.complete b (Transcript.start.run trace.reads).1 exit).1.artifacts? b = some trace.artifacts := by
  obtain ⟨job, hj, -⟩ := Option.map_eq_some_iff.1 (h.order.running hu)
  change (exit.isSuccess && !(w.site.job? b).any w.site.isCanceled) = true at hyes
  unfold Site.artifacts? Site.complete
  dsimp only
  rw [Site.job?_update_self (fun _ => by rfl) w.site b hj, hyes]
  rfl

/-- Whether the process has succeeded is seen from its exit and from the token, and what it printed is kept then. -/
theorem staged_reap (h : Kept errands w) {t : Transcript} {killed : Bool} {trace : Trace} {exit : Exit}
    (hs : w.stage b = .drained t killed) (hp : (errands b).process = .ok trace)
    (hexit : killed = false → trace.exit = .exited exit) :
    Moves (some b) w.ledger ⟨(w.site.complete b t exit).1, w.ledger.starts, w.ledger.ends⟩ ∧
      Staged (errands b) ⟨(w.site.complete b t exit).1, w.ledger.starts, w.ledger.ends⟩ b
        (.ending (w.site.complete b t exit).2) := by
  have hdrained := h.staged b
  rw [hs] at hdrained
  obtain ⟨hu, trace', hp', hkilled⟩ := hdrained
  obtain rfl : trace = trace' := Except.ok.inj (hp.symm.trans hp')
  have hm : Moves (some b) w.ledger ⟨(w.site.complete b t exit).1, w.ledger.starts, w.ledger.ends⟩ :=
    h.order.moves (m := .store b (Artifact.listed (t.result (w.site.complete b t exit).2).values)) trivial
      fun _ _ _ he => by cases he
  obtain ⟨hstays, hu'⟩ := h.underway hu hm hu.2
  refine ⟨hm, hu', ?_⟩
  have hcanceled : (w.site.job? b).any w.site.isCanceled = true ↔ w.site.IsCanceled b := by
    simp [Option.any_eq_true, Site.IsCanceled]
  have hsucceeded : (w.site.complete b t exit).2 = true ↔ exit.isSuccess = true ∧ ¬ w.site.IsCanceled b := by
    rw [← hcanceled]
    simp [Site.complete]
  cases hend : (w.site.complete b t exit).2 with
  | true =>
    obtain ⟨hwell, hfree⟩ := hsucceeded.1 hend
    cases killed with
    | true => exact absurd hkilled hfree
    | false =>
      obtain rfl : t = (Transcript.start.run trace.reads).1 := hkilled
      exact ⟨trace, hp, by rw [hexit rfl]; exact hwell, h.artifacts?_complete hu hend⟩
  | false =>
    by_cases hc : w.site.IsCanceled b
    · exact .inl (hstays.canceled hc)
    · cases killed with
      | true => exact absurd hkilled hc
      | false =>
        right
        rintro ⟨trace', hp'', hwell⟩
        obtain rfl : trace = trace' := Except.ok.inj (hp.symm.trans hp'')
        rw [hexit rfl] at hwell
        have hyes := hsucceeded.2 ⟨hwell, hc⟩
        rw [hend] at hyes
        cases hyes

theorem staged_finish (h : Kept errands w) {succeeded : Bool} (hs : w.stage b = .ending succeeded) :
    w.ledger.Allows (.finish (errands b).lane b succeeded) ∧
      Staged (errands b) (w.ledger.after (.finish (errands b).lane b succeeded)) b
        (.answered (w.site.finish (errands b).lane b succeeded).2) := by
  have hending := h.staged b
  rw [hs] at hending
  obtain ⟨hu, hend⟩ := hending
  have hrun := h.order.running hu
  obtain ⟨job, hj, hstate⟩ := Option.map_eq_some_iff.1 hrun
  have hsound := h.order.rows.sound job (Rows.mem_of_job? hj).1
  obtain ⟨host, hh⟩ := Option.isSome_iff_exists.1 (hsound.running_iff.1 hstate)
  have hv : job.outcome.cell.value = none := hsound.value_eq_none (by rw [hstate]; rfl)
  obtain ⟨result, hresult, hcloses, hcanceled, hsucceeded, hartifacts⟩ :=
    Site.closes_finish hj hh hv (errands b).lane succeeded
  have hallows : w.ledger.Allows (.finish (errands b).lane b succeeded) := hu
  have hgoes := (h.order.moves hallows fun _ _ _ he => by cases he).goes b
  obtain ⟨result', hended⟩ := ((h.told b).goes hgoes).ended ⟨_, hcloses.state, verdict_isFinal ..⟩
  obtain rfl : result = result' := Option.some_inj.1 (hcloses.result.symm.trans hended.result)
  refine ⟨hallows, result, hresult, hended, fun _ => ⟨?_, ?_⟩⟩
  · cases succeeded with
    | true =>
      obtain ⟨trace, hp, hexit, -⟩ := hend
      have hwell : (errands b).ExitsWell := ⟨trace, hp, hexit⟩
      simpa [hwell] using hsucceeded
    | false =>
      have hno : result.succeeded ≠ true := by simp [hsucceeded]
      refine iff_of_false hno fun ⟨hwell, hc⟩ => ?_
      rcases hend with hcan | hbad
      · rw [hcanceled.2 hcan] at hc
        cases hc
      · exact hbad hwell
  · intro hyes
    obtain ⟨rfl, -⟩ := hsucceeded.1 hyes
    obtain ⟨trace, hp, -, hstored⟩ := hend
    refine ⟨trace, hp, (hartifacts hyes).trans ?_⟩
    rw [Site.artifacts?, hj] at hstored
    exact Option.some_inj.1 hstored

end Kept

/-- A step takes every build one step on, and what holds between two steps holds after it. -/
theorem Step.kept {errands : Nat → Errand} {w w' : Workshop} (hw : Step errands w w') (h : Kept errands w) :
    Kept errands w' ∧ ∀ b, Goes b w.ledger w'.ledger := by
  cases hw with
  | @around m hm =>
    have hmoves : Moves none w.ledger (w.ledger.after m) := by
      have ho : m.owner? = none := by
        cases m with
        | start lane n | finish lane n succeeded | store n artifacts => cases hm
        | _ => rfl
      rw [← ho]
      refine h.order.moves ?_ fun _ _ _ he => by rw [he] at hm; cases hm
      cases m with
      | start lane n | finish lane n succeeded => cases hm
      | _ => trivial
    exact ⟨h.around hmoves, hmoves.goes⟩
  | signal b =>
    have hmoves := h.order.moves_signal b
    refine ⟨?_, hmoves.goes⟩
    rw [Workshop.work, Workshop.turn, Function.update_eq_self]
    exact h.around hmoves
  | @ask b hs hj =>
    have hfresh := h.staged b
    rw [hs] at hfresh
    have hmoves := h.order.moves (m := .start (errands b).lane b) hj fun _ _ _ he => by cases he
    exact ⟨h.turn hmoves (fun n hn => (Option.some_inj.1 hn).symm) hfresh.2, hmoves.goes⟩
  | @leave b result hs hno hr =>
    exact ⟨h.turn h.order.moves_refl (by simp) (h.staged_leave hs hno hr), h.order.moves_refl.goes⟩
  | fail hs hyes hp =>
    obtain ⟨hmoves, hstaged⟩ := h.staged_fail hs hyes hp
    exact ⟨h.turn hmoves (by simp) hstaged, hmoves.goes⟩
  | @spawn b trace hs hyes hp =>
    have hopen := h.staged b
    rw [hs] at hopen
    have hstaged : Staged (errands b) w.ledger b (.reading .start trace.reads) :=
      ⟨⟨hyes, hopen⟩, trace, [], hp, rfl, rfl⟩
    exact ⟨h.turn h.order.moves_refl (by simp) hstaged, h.order.moves_refl.goes⟩
  | read hs =>
    obtain ⟨hmoves, hstaged⟩ := h.staged_read hs
    exact ⟨h.turn hmoves (by simp) hstaged, hmoves.goes⟩
  | stop killed hs hwhy =>
    obtain ⟨hmoves, hstaged⟩ := h.staged_stop hs hwhy
    exact ⟨h.turn hmoves (by simp) hstaged, hmoves.goes⟩
  | reap exit hs hp hexit =>
    obtain ⟨hmoves, hstaged⟩ := h.staged_reap hs hp hexit
    exact ⟨h.turn hmoves (fun n hn => (Option.some_inj.1 hn).symm) hstaged, hmoves.goes⟩
  | lose message hs hp hlost =>
    obtain ⟨hmoves, hstaged⟩ := h.staged_lose hs hp hlost
    exact ⟨h.turn hmoves (by simp) hstaged, hmoves.goes⟩
  | finish hs =>
    obtain ⟨hallows, hstaged⟩ := h.staged_finish hs
    have hmoves := h.order.moves hallows fun _ _ _ he => by cases he
    exact ⟨h.turn hmoves (fun n hn => (Option.some_inj.1 hn).symm) hstaged, hmoves.goes⟩

namespace Steps

variable {errands : Nat → Errand} {w w' : Workshop} {b : Nat}

theorem kept_of (h : Steps errands w w') (hw : Kept errands w) : Kept errands w' := by
  induction h with
  | refl => exact hw
  | tail _ hstep ih => exact (hstep.kept ih).1

theorem kept (h : Steps errands .start w) : Kept errands w :=
  h.kept_of (.start errands)

theorem stays_of_isFinal (h : Steps errands w w') (hw : Kept errands w) (hf : w.site.IsFinal b) :
    Stays b w.ledger w'.ledger := by
  induction h with
  | refl => exact .refl b w.ledger
  | @tail w₁ w₂ h hstep ih =>
    have hf' : w₁.site.IsFinal b := by
      obtain ⟨st, hs, hst⟩ := hf
      exact ⟨st, ih.state.trans hs, hst⟩
    exact ih.trans (((hstep.kept (kept_of h hw)).2 b).stays_of_isFinal hf')

end Steps

end CrateYard.Build
