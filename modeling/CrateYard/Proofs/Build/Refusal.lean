import CrateYard.Proofs.Build.Outcome
import CrateYard.Proofs.Build.Permit

/-! A build that is canceled while it waits. It looks for its cancellation at the end of an interval only: if that
comes first it is refused, and if the lock is handed to it and taken before, it runs all the same. -/

namespace CrateYard.Build

/-- Among the moves is one that takes the lock for a build. -/
def Ledger.TakenFor (l : Ledger) (b : Nat) (moves : List Move) : Prop :=
  ∃ before m rest, moves = before ++ m :: rest ∧ m.TakesFor (l.afterAll before).site b

theorem Ledger.takenFor_concat {l : Ledger} {b : Nat} {moves : List Move} {m : Move} :
    l.TakenFor b (moves ++ [m]) ↔ l.TakenFor b moves ∨ m.TakesFor (l.afterAll moves).site b := by
  constructor
  · rintro ⟨before, m', rest, he, ht⟩
    rcases List.eq_nil_or_concat rest with rfl | ⟨rest', m'', rfl⟩
    · obtain ⟨rfl, hm⟩ := List.append_inj' he rfl
      rw [List.singleton_inj.1 hm]
      exact .inr ht
    · rw [List.concat_eq_append, ← List.cons_append, ← List.append_assoc] at he
      obtain ⟨rfl, -⟩ := List.append_inj' he rfl
      exact .inl ⟨before, m', rest', rfl, ht⟩
  · rintro (⟨before, m', rest, rfl, ht⟩ | ht)
    · exact ⟨before, m', rest ++ [m], by simp, ht⟩
    · exact ⟨moves, m, [], rfl, ht⟩

namespace Site

def HasStarted (s : Site) (b : Nat) : Prop :=
  ∃ lane message, .published lane (.started (idText b) message) ∈ s.notices

theorem hasStarted_iff {s : Site} {b : Nat} : s.HasStarted b ↔ ∃ message, .started (idText b) message ∈ s.marks b := by
  constructor
  · rintro ⟨lane, message, hm⟩
    exact ⟨message, mem_marks.2 ⟨lane, hm, rfl, rfl⟩⟩
  · rintro ⟨message, hm⟩
    obtain ⟨lane, hn, -⟩ := mem_marks.1 hm
    exact ⟨lane, message, hn⟩

/-- A build neither runs nor has come to its end. -/
def IsEarly (s : Site) (b : Nat) : Prop :=
  ∀ st, s.state? b = some st → st = .idle ∨ st = .waiting

theorem HasStarted.of_marks {s s' : Site} {b : Nat} (h : s'.HasStarted b) (hm : s'.marks b = s.marks b) :
    s.HasStarted b := by
  rwa [hasStarted_iff, hm, ← hasStarted_iff] at h

end Site

theorem Orderly.refused_of_look {l : Ledger} {b : Nat} (o : Orderly l (some b) none) {job : Job}
    (hj : l.site.job? b = some job) (hs : job.state = .waiting) (hc : l.site.isCanceled job = true) (lane : Lane)
    (r : Nat) :
    (l.site.look lane job r).IsRefused b ∧ .answered r false ∈ (l.site.look lane job r).notices ∧
      ((l.site.look lane job r).HasStarted b → l.site.HasStarted b) := by
  have hv : job.outcome.cell.value = none :=
    (o.rows.sound job (Rows.mem_of_job? hj).1).value_eq_none (by rw [hs]; rfl)
  have href := (o.refuse lane hj (.inr ⟨hs, rfl⟩)).2
  rw [Site.look_of_isCanceled hv hc]
  refine ⟨href, List.mem_append_right _ (List.mem_singleton_self _), ?_⟩
  rintro ⟨n, message, hn⟩
  rw [Site.concludeCanceled_eq _ _ hv] at hn
  change _ ∈ l.site.notices ++ _ ++ _ at hn
  exact ⟨n, message, by simpa using hn⟩

namespace Looks

variable {l l' : Ledger} {b : Nat}

theorem refused (h : Looks l b l') (hc : l.site.IsCanceled b) :
    l'.Returned b false ∧ l'.site.IsRefused b ∧ (l'.site.HasStarted b → l.site.HasStarted b) := by
  obtain @⟨s, lane, job, r, o, hk, hj, hs, hr⟩ := h
  obtain ⟨job', hj', hcan⟩ := hk.canceled hc
  obtain rfl : job = job' := Option.some_inj.1 (hj.symm.trans hj')
  obtain ⟨href, hno, hstarted⟩ := o.refused_of_look hj hs hcan lane r
  exact ⟨⟨r, hr, hno⟩, href, fun h => (hstarted h).of_marks hk.marks⟩

theorem marks (h : Looks l b l') (hw : l'.site.IsEarly b) : l'.site.marks b = l.site.marks b := by
  obtain @⟨s, lane, job, r, o, hk, hj, hs, hr⟩ := h
  rw [← hk.marks]
  dsimp only at hw ⊢
  cases hc : s.isCanceled job with
  | true =>
    have href := (o.refused_of_look hj hs hc lane r).1
    rcases hw _ href.1 with h | h <;> cases h
  | false =>
    rw [Site.look_of_not_isCanceled hc] at hw ⊢
    unfold Site.queue at hw ⊢
    dsimp only at hw ⊢
    split
    · next hfree =>
      obtain ⟨-, rfl⟩ := Rows.mem_of_job? hj
      rw [if_pos hfree] at hw
      rcases hw _ (Site.state?_run (s := s.setLock _ _) hj _ _) with h | h <;> cases h
    · rfl

end Looks

namespace Orderly

variable {l : Ledger} {b : Nat} {m : Move}

theorem hasStarted_after (o : Orderly l none none) (h : l.site.HasStarted b) (m : Move) :
    (l.after m).site.HasStarted b := by
  obtain ⟨lane, message, hm⟩ := h
  exact ⟨lane, message, (o.notices_after m).subset hm⟩

theorem started_of_takesFor (o : Orderly l none none) (ht : m.TakesFor l.site b) :
    (l.after m).site.state? b = some .running ∧ (l.after m).Returned b true ∧ (l.after m).site.HasStarted b := by
  cases m with
  | take host =>
    obtain ⟨t, hh, rfl⟩ := ht
    obtain ⟨-, hr, job, hj, -⟩ := o.seated (mem_tickets_of_handed hh)
    obtain ⟨-, hnum⟩ := Rows.mem_of_job? hj
    simp only [Ledger.Returned, Ledger.after, Site.after, Site.take_eq hh hj]
    refine ⟨?_, ⟨t.request, hr, List.mem_append_right _ (List.mem_singleton_self _)⟩, t.lane.number,
      job.startMessage, ?_⟩
    · rw [← hnum] at hj ⊢
      exact Site.state?_run (s := l.site.setLock host _) hj _ _
    · simp [Site.run, Site.publish, Site.notify, Job.name, hnum]
  | _ => exact ht.elim

theorem looks_of_start (o : Orderly l none none) (lane : Lane) (hs : l.site.state? b = some .idle) :
    Looks ⟨l.site.opened b, (b, l.site.requests) :: l.starts, l.ends⟩ b (l.after (.start lane b)) := by
  obtain ⟨job, hj, hidle⟩ := Option.map_eq_some_iff.1 hs
  obtain ⟨-, rfl⟩ := Rows.mem_of_job? hj
  have hj' : (l.site.opened job.number).job? job.number = some { job with state := .waiting } := by
    rw [Site.job?_opened, if_pos rfl, hj]
    rfl
  have hnew := o.answers.unasked_of_idle hs
  simp only [Ledger.after, Site.after, Site.request_of_idle hj hidle, Ledger.noteStart_of_new hnew]
  exact ⟨o.opened hj hidle hnew, .refl _ _, hj', rfl, List.mem_cons_self⟩

theorem marks_after (o : Orderly l none none) (hm : l.Allows m) (hold : l.site.IsEarly b → l.site.marks b = [])
    (hnew : (l.after m).site.IsEarly b) : (l.after m).site.marks b = [] := by
  by_cases ht : m.turn? l.site = some b
  · rcases o.turn_cases hm ht with ⟨hs, lane, rfl | rfl⟩ | ⟨hs, htake | hlook⟩ | ⟨hs, lane, succeeded, rfl⟩
    · have hlook := o.looks_of_start lane hs
      rw [hlook.marks hnew]
      exact hold fun st hst => .inl (Option.some_inj.1 (hst.symm.trans hs))
    · rcases hnew _ (o.cancel_idle lane hs).2.1 with h | h <;> cases h
    · rcases hnew _ (o.started_of_takesFor htake).1 with h | h <;> cases h
    · rw [hlook.marks hnew]
      exact hold fun st hst => .inr (Option.some_inj.1 (hst.symm.trans hs))
    · obtain ⟨st, hst, hf⟩ := (o.after hm).answers.ended b List.mem_cons_self
      rcases hnew st hst with rfl | rfl <;> cases hf
  · cases m with
    | create project task isTest parent =>
      refine hold fun st hst => hnew st ?_
      exact (o.keeps (by simp [hst]) ht).state.trans hst
    | _ =>
      have hk := (o.touches fun _ _ _ _ h => by cases h).keeps ht
      exact hk.marks.trans (hold fun st hst => hnew st (hk.state.trans hst))

end Orderly

theorem Course.marks_eq_nil {l : Ledger} {moves : List Move} (h : Course .start moves l) {b : Nat}
    (hb : l.site.IsEarly b) : l.site.marks b = [] := by
  induction h with
  | nil => rfl
  | snoc h' hm ih => exact h'.orderly.marks_after hm ih hb

/-- A build that was canceled while it waited and has not run: it waits on, or was told no. -/
structure Ledger.Barred (l : Ledger) (b : Nat) : Prop where
  unannounced : ¬ l.site.HasStarted b
  unfinished : b ∉ l.ends
  fate : l.site.state? b = some .waiting ∧ l.site.IsCanceled b ∨ l.Returned b false ∧ l.site.IsRefused b

namespace Orderly

variable {l : Ledger} {b : Nat} {m : Move}

theorem barred (o : Orderly l none none) (hs : l.site.state? b = some .waiting) (hc : l.site.IsCanceled b)
    (hn : ¬ l.site.HasStarted b) : l.Barred b := by
  refine ⟨hn, fun he => ?_, .inl ⟨hs, hc⟩⟩
  obtain ⟨st, hst, hf⟩ := o.answers.ended b he
  rw [hs] at hst
  cases hst
  cases hf

theorem not_returned_of_barred (o : Orderly l none none) (hb : l.Barred b) : ¬ l.Returned b true := by
  rintro ⟨r, hr, hyes⟩
  have hrun := (o.answers.yes b r hr hyes).resolve_right hb.unfinished
  rcases hb.fate with ⟨hs, -⟩ | ⟨-, hs, -⟩
  · rw [hs] at hrun
    cases hrun
  · rw [hs] at hrun
    cases hrun

/-- Only by taking the lock does a barred build get its turn without being refused. -/
theorem refused_of_turn (o : Orderly l none none) (hm : l.Allows m) (hb : l.Barred b)
    (ht : m.turn? l.site = some b) (hn : ¬ m.TakesFor l.site b) :
    (l.after m).Returned b false ∧ (l.after m).site.IsRefused b ∧ ¬ (l.after m).site.HasStarted b := by
  rcases hb.fate with ⟨hs, hc⟩ | ⟨-, hr⟩
  · rcases o.turn_cases hm ht with ⟨h, -⟩ | ⟨-, htake | hlook⟩ | ⟨h, -⟩
    · rw [hs] at h
      cases h
    · exact absurd htake hn
    · obtain ⟨hno, href, hsame⟩ := hlook.refused hc
      exact ⟨hno, href, fun h => hb.unannounced (hsame h)⟩
    · rw [hs] at h
      cases h
  · rcases o.turn_cases hm ht with ⟨h, -⟩ | ⟨h, -⟩ | ⟨h, -⟩ <;> rw [hr.1] at h <;> cases h

theorem barred_after (o : Orderly l none none) (hm : l.Allows m) (hb : l.Barred b) (hn : ¬ m.TakesFor l.site b) :
    (l.after m).Barred b := by
  have hends : b ∉ (l.after m).ends := by
    cases m with
    | finish lane n succeeded =>
      refine fun he => (List.mem_cons.1 he).elim (fun he => ?_) hb.unfinished
      exact o.not_returned_of_barred hb (he ▸ hm.1)
    | _ => exact hb.unfinished
  by_cases ht : m.turn? l.site = some b
  · obtain ⟨hno, href, hstarted⟩ := o.refused_of_turn hm hb ht hn
    exact ⟨hstarted, hends, .inr ⟨hno, href⟩⟩
  · have hthere : l.site.state? b ≠ none := by
      rcases hb.fate with ⟨hs, -⟩ | ⟨-, hr⟩
      · simp [hs]
      · simp [hr.1]
    have hk := o.keeps hthere ht
    refine ⟨fun h => hb.unannounced (h.of_marks hk.marks), hends, ?_⟩
    rcases hb.fate with ⟨hs, hc⟩ | ⟨hno, hr⟩
    · exact .inl ⟨hk.state.trans hs, hk.canceled hc⟩
    · exact .inr ⟨o.returned_after hno m, hk.state.trans hr.1, by rw [hk.result]; exact hr.2⟩

end Orderly

/-- A canceled waiter is barred until it takes the lock, and from then on has started. -/
theorem Course.barred_or_started {l l' : Ledger} {moves : List Move} (o : Orderly l none none) (h : Course l moves l')
    {b : Nat} (hb : l.Barred b) :
    Orderly l' none none ∧ (¬ l.TakenFor b moves ∧ l'.Barred b ∨
      l.TakenFor b moves ∧ l'.Returned b true ∧ l'.site.HasStarted b) := by
  induction h with
  | nil => exact ⟨o, .inl ⟨fun ⟨_, _, _, he, _⟩ => by simp at he, hb⟩⟩
  | @snoc moves l' m h' hm ih =>
    obtain ⟨o', ih⟩ := ih
    refine ⟨o'.after hm, ?_⟩
    rw [Ledger.takenFor_concat, ← h'.eq_afterAll]
    rcases ih with ⟨hn, hb'⟩ | ⟨ht, hyes, hstarted⟩
    · by_cases ht : m.TakesFor l'.site b
      · exact .inr ⟨.inr ht, (o'.started_of_takesFor ht).2⟩
      · exact .inl ⟨by simp [hn, ht], o'.barred_after hm hb' ht⟩
    · exact .inr ⟨.inl ht, o'.returned_after hyes m, o'.hasStarted_after hstarted m⟩

/-- A build that was refused has no permit: another build has it, or it is free. -/
theorem Orderly.free_of_refused {l : Ledger} (o : Orderly l none none) {b : Nat} (hr : l.site.IsRefused b)
    (host : String) :
    (l.site.lock host).free = 1 ∨ ∃ job ∈ l.site.jobs, job.number ≠ b ∧ l.site.Owns host job = true := by
  have hone := o.free_add_owners host
  by_cases hf : (l.site.lock host).free = 1
  · exact .inl hf
  · have hpos : 0 < l.site.owners host := by
      have : (l.site.lock host).free ≤ 1 := by
        unfold Lock.free
        split <;> decide
      omega
    obtain ⟨job, hj, hown⟩ := List.countP_pos_iff.1 hpos
    refine .inr ⟨job, hj, ?_, hown⟩
    rintro rfl
    have hs := hr.1
    rw [Site.state?, o.rows.job?_of_mem hj] at hs
    replace hs : job.state = .canceled := Option.some_inj.1 hs
    rcases o.holds_or_waits hj hown with h | h
    · have hrun := (o.rows.sound job hj).running_iff.2 (by rw [h]; rfl)
      rw [hs] at hrun
      cases hrun
    · rw [hs] at h
      cases h

/-- A build that is canceled while it waits starts after all exactly when the lock is handed to it and it takes it
before it looks again. Until then it waits without a lock; once it looks it is refused, its result says that it was
canceled, and no host is left without its permit. -/
theorem starts_iff_taken {moves later : List Move} {l l' : Ledger} {b : Nat} (h : Course .start moves l)
    (hw : l.site.state? b = some .waiting) (hc : l.site.IsCanceled b) (h' : Course l later l') :
    (l'.Returned b true ↔ l.TakenFor b later) ∧ (l'.site.HasStarted b ↔ l.TakenFor b later) ∧
    (¬ l.TakenFor b later →
      (∀ job, l'.site.job? b = some job → job.state ≠ .running ∧ job.holds = none) ∧
      (l'.site.state? b = some .waiting ∨ l'.Returned b false ∧ l'.site.IsRefused b) ∧
      (∀ m, l'.Allows m → m.turn? l'.site = some b → ¬ m.TakesFor l'.site b →
        (l'.after m).Returned b false ∧ (l'.after m).site.IsRefused b ∧ ¬ (l'.after m).site.HasStarted b)) ∧
    (l'.site.IsRefused b → ∀ host, (l'.site.lock host).free = 1 ∨
      ∃ job ∈ l'.site.jobs, job.number ≠ b ∧ l'.site.Owns host job = true) := by
  have hearly : l.site.IsEarly b := fun st hst => .inr (Option.some_inj.1 (hst.symm.trans hw))
  have hsilent : ¬ l.site.HasStarted b := fun hs => by
    obtain ⟨message, hm⟩ := Site.hasStarted_iff.1 hs
    rw [h.marks_eq_nil hearly] at hm
    cases hm
  obtain ⟨o, ⟨hn, hbar⟩ | ⟨ht, hyes, hstarted⟩⟩ := h'.barred_or_started h.orderly (h.orderly.barred hw hc hsilent)
  · refine ⟨iff_of_false (o.not_returned_of_barred hbar) hn, iff_of_false hbar.unannounced hn, fun _ => ?_,
      fun hr => o.free_of_refused hr⟩
    refine ⟨fun job hj => ?_, hbar.fate.imp_left And.left, fun m hm ht htake => o.refused_of_turn hm hbar ht htake⟩
    have hrun : job.state ≠ .running := by
      intro he
      have hst : l'.site.state? b = some .running := by simp [Site.state?, hj, he]
      rcases hbar.fate with ⟨hs, -⟩ | ⟨-, hs, -⟩ <;> rw [hs] at hst <;> cases hst
    exact ⟨hrun, (o.rows.sound job (Rows.mem_of_job? hj).1).holds_eq_none hrun⟩
  · exact ⟨iff_of_true hyes ht, iff_of_true hstarted ht, fun hn => absurd ht hn, fun hr => o.free_of_refused hr⟩

/-- The second of two builds is canceled while it waits. The first ends before the second looks again, and the second
takes its lock and runs. -/
theorem starts_iff_taken_contention :
    let moves := contention ++ [.cancel soleLane 2]
    let later := [.finish soleLane 1 true, .take "/ws"]
    let l := Ledger.start.afterAll moves
    Course .start moves l ∧ l.site.state? 2 = some .waiting ∧ l.site.IsCanceled 2 ∧
      Course l later (l.afterAll later) ∧ (l.afterAll later).site.state? 2 = some .running ∧
      (l.afterAll later).Returned 2 true ∧ (l.afterAll later).site.HasStarted 2 := by
  intro moves later l
  have h : Course .start moves l :=
    .of_allowsAll (show Ledger.start.AllowsAll (contention ++ [.cancel soleLane 2]) by decide)
  have hw : l.site.state? 2 = some .waiting := by decide
  have hc : l.site.IsCanceled 2 := ⟨_, by rfl, by decide⟩
  have h' : Course l later (l.afterAll later) := .of_allowsAll (show l.AllowsAll later by decide)
  have ht : l.TakenFor 2 later := ⟨[.finish soleLane 1 true], .take "/ws", [], rfl, secondTicket, by decide, rfl⟩
  obtain ⟨hyes, hstarted, -⟩ := starts_iff_taken h hw hc h'
  exact ⟨h, hw, hc, h', by decide, hyes.2 ht, hstarted.2 ht⟩

end CrateYard.Build
