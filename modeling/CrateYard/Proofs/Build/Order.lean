import CrateYard.Proofs.Build.Orderly

/-! Every move keeps a site in order, and so does every course. A build whose turn it is has left the line; what it
then does (being refused, running, joining the line) is shown once and serves a start, the end of an interval and a
lock that is given back. -/

namespace CrateYard.Build

namespace Site

def canceledResult (job : Job) : Result :=
  job.result false true (verdict true false 0 0).message

theorem concludeCanceled_eq (s : Site) (lane : Lane) {job : Job} (h : job.outcome.cell.value = none) :
    s.concludeCanceled lane job =
      ((s.update job.number fun x => x.ended (verdict true false 0 0) (job.outcome.written (canceledResult job))).publish
        lane
        [.finished job.name (canceledResult job).message false true,
          .notification job.name .info (canceledResult job).message], .ok (canceledResult job)) :=
  conclude_eq s lane h _ _

/-- A running build comes to its end: its lock is released and its result is written and announced. -/
theorem finish_eq (s : Site) (lane : Lane) {job : Job} {host : String} (hj : s.job? job.number = some job)
    (hh : job.holds = some host) (h : job.outcome.cell.value = none) (succeeded : Bool) {v : Verdict}
    (hv : verdict (s.isCanceled job) succeeded job.errors job.warnings = v) {result : Result}
    (hr : job.result succeeded (s.isCanceled job) v.message = result) :
    s.finish lane job.number succeeded =
      (((s.update job.number fun x =>
          ({ x with holds := none } : Job).ended v (job.outcome.written result)).setLock host
        (s.lock host).release).publish lane
          [.finished result.id result.message result.succeeded result.canceled,
            .notification result.id v.severity result.message], .ok result) := by
  unfold finish
  rw [hj]
  dsimp only
  rw [conclude_eq _ _ h, hv, hr]
  unfold releaseLock
  rw [hh]
  dsimp only
  have hu := update_update (fun x => { x with holds := none }) (fun x => x.ended v (job.outcome.written result))
    (fun _ => rfl) s job.number
  rw [← hu]
  rfl

theorem look_of_isCanceled {s : Site} {lane : Lane} {job : Job} (hv : job.outcome.cell.value = none)
    (hc : s.isCanceled job = true) (r : Nat) :
    s.look lane job r = (s.concludeCanceled lane job).1.notify [.answered r false] := by
  unfold look
  rw [if_pos hc, concludeCanceled_eq s lane hv]

theorem look_of_not_isCanceled {s : Site} {job : Job} (hc : s.isCanceled job = false) (lane : Lane) (r : Nat) :
    s.look lane job r = s.queue lane job r := by
  unfold look
  rw [hc]
  rfl

theorem state?_run {s : Site} {job : Job} (hj : s.job? job.number = some job) (lane : Lane) (r : Nat) :
    (s.run lane job r).state? job.number = some .running := by
  change (s.update job.number _).state? job.number = _
  rw [state?_update fun _ => by rfl, if_pos rfl, hj]
  rfl

end Site

namespace Orderly

variable {l : Ledger} {turn : Option Nat} {hand : Option String} {b r : Nat} {job : Job} {lane : Lane}

theorem same (o : Orderly l turn hand) {s : Site} (hrows : Rows s) (hl : ∀ host, s.lock host = l.site.lock host)
    (hh : ∀ host, s.holders host = l.site.holders host) (hs : ∀ n, s.state? n = l.site.state? n)
    (hr : ∀ n, s.result? n = l.site.result? n) (ht : s.tickets = l.site.tickets)
    (hq : l.site.requests ≤ s.requests)
    (hn : ∀ n ∈ s.notices, n ∈ l.site.notices ∨ ∃ lane event, n = .published lane event) :
    Orderly { l with site := s } turn hand := by
  refine ⟨hrows, fun host => ?_, ?_, ?_⟩
  · rw [hl, hh]
    exact o.balanced host
  · exact o.lined.same (fun host => by rw [hl]) ht fun n => by rw [hs]
  · refine o.answers.same hs hr (fun host => by rw [hl]; exact List.Subset.refl _) hq ?_ ?_ rfl rfl
    · intro q ok hm
      simpa using hn _ hm
    · intro e hm
      simpa using hn _ hm

theorem update (o : Orderly l turn hand) {f : Job → Job} (hnum : ∀ x, (f x).number = x.number)
    (hs : ∀ x, (f x).state = x.state) (hh : ∀ x, (f x).holds = x.holds)
    (hc : ∀ x, (f x).outcome.cell = x.outcome.cell) (b : Nat) :
    Orderly { l with site := l.site.update b f } turn hand := by
  refine o.same ?_ (fun _ => rfl) (Site.holders_update_of_holds_eq hh l.site b) ?_ ?_ rfl (Nat.le_refl _)
    fun n hn => .inl hn
  · refine o.rows.update hnum fun job hj => ?_
    have h := o.rows.sound job (Rows.mem_of_job? hj).1
    exact ⟨by rw [hs, hh]; exact h.running_iff, by rw [hs, hc]; exact h.final_iff, by rw [hs, hc]; exact h.version⟩
  · intro n
    rw [Site.state?_update hnum]
    split
    · next he => simp [Site.state?, he, hs]
    · rfl
  · intro n
    rw [Site.result?_update hnum]
    split
    · next he => simp [Site.result?, he, hc]
    · rfl

theorem publish (o : Orderly l turn hand) (lane : Lane) (events : List Progress) :
    Orderly { l with site := l.site.publish lane events } turn hand := by
  refine o.same ⟨o.rows.numbers, o.rows.sound⟩ (fun _ => rfl) (fun _ => rfl) (fun _ => rfl) (fun _ => rfl) rfl
    (Nat.le_refl _) fun n hn => ?_
  rcases (Site.mem_notices_publish _ _ _ _).1 hn with hn | ⟨e, -, rfl⟩
  · exact .inl hn
  · exact .inr ⟨_, e, rfl⟩

/-- A build goes on: one in line has had its turn, and what it holds goes into the hand or comes from it. -/
theorem advance (o : Orderly l turn hand) {f : Job → Job} (hnum : ∀ x, (f x).number = x.number)
    (hj : l.site.job? job.number = some job) (hlive : job.state.isFinal = false) (hsound : (f job).Sound)
    (hturn : turn = none ∨ turn = some job.number) (hseat : job.state = .waiting ↔ turn = some job.number)
    (hidle : (f job).state ≠ .idle) (hleft : (f job).state ≠ .waiting) {hand' : Option String}
    (hpermit : ∀ host, (if job.holds = some host then 1 else 0) + (if hand = some host then 1 else 0) =
      (if (f job).holds = some host then 1 else 0) + (if hand' = some host then 1 else 0)) {ends : List Nat}
    (hends : ends = l.ends ∧ job.state ≠ .running ∨ ends = job.number :: l.ends ∧ (f job).state.isFinal = true)
    (hasked : (∃ r, (job.number, r) ∈ l.starts) ∨ (l.site.update job.number f).IsRefused job.number) :
    Orderly ⟨l.site.update job.number f, l.starts, ends⟩ none hand' := by
  have hst := Site.state?_eq hj
  have hst' := Site.state?_eq (Site.job?_update_self hnum _ _ hj)
  have hother : ∀ n, n ≠ job.number → (l.site.update job.number f).state? n = l.site.state? n ∧
      (l.site.update job.number f).result? n = l.site.result? n := fun n hn =>
    ⟨by rw [Site.state?_update hnum, if_neg hn], by rw [Site.result?_update hnum, if_neg hn]⟩
  refine ⟨o.rows.update hnum fun x hx => ?_, fun host => ?_, ?_, ?_⟩
  · obtain rfl : job = x := Option.some_inj.1 (hj.symm.trans hx)
    exact hsound
  · have hcount := o.rows.holders_update f hj host
    have hone := o.balanced host
    have hp := hpermit host
    change (l.site.lock host).free + (l.site.lock host).onItsWay + (l.site.update job.number f).holders host + _ = 1
    omega
  · refine o.lined.same (fun _ => rfl) rfl fun n => ?_
    by_cases hn : n = job.number
    · subst hn
      simp [hst, hst', hleft, hseat]
    · have hne : turn ≠ some n := by
        rcases hturn with rfl | rfl
        · simp
        · exact fun he => hn (Option.some_inj.1 he).symm
      simp [(hother n hn).1, hne]
  · exact o.answers.advance hst hlive hst' hidle hother (fun _ => rfl) rfl rfl rfl hends hasked

theorem answer (o : Orderly l turn hand) {ok : Bool} (hr : r < l.site.requests)
    (hyes : ∀ b, (b, r) ∈ l.starts → ok = true → l.site.state? b = some .running)
    (hno : ∀ b, (b, r) ∈ l.starts → ok = false → l.site.IsRefused b) :
    Orderly { l with site := l.site.notify [.answered r ok] } turn hand :=
  ⟨⟨o.rows.numbers, o.rows.sound⟩, o.balanced,
    ⟨o.lined.seated_iff, o.lined.placed, o.lined.apart, o.lined.nodup⟩, o.answers.tell hr hyes hno⟩

theorem tell (o : Orderly l turn hand) {ok : Bool} (hb : (b, r) ∈ l.starts)
    (hyes : ok = true → l.site.state? b = some .running) (hno : ok = false → l.site.IsRefused b) :
    Orderly { l with site := l.site.notify [.answered r ok] } turn hand := by
  have hself : ∀ n, (n, r) ∈ l.starts → n = b := fun n hn => (o.answers.alone n r b r hn hb (.inr rfl)).1
  exact o.answer (o.answers.asked b r hb).1 (fun n hn => hself n hn ▸ hyes) fun n hn => hself n hn ▸ hno

/-- A build that has not run is canceled. -/
theorem refuse (o : Orderly l turn none) (lane : Lane) (hj : l.site.job? b = some job)
    (hs : job.state = .idle ∧ turn = none ∨ job.state = .waiting ∧ turn = some b) :
    Orderly { l with site := (l.site.concludeCanceled lane job).1 } none none ∧
      (l.site.concludeCanceled lane job).1.IsRefused b := by
  obtain ⟨hmem, rfl⟩ := Rows.mem_of_job? hj
  have hsound := o.rows.sound job hmem
  have hlive : job.state.isFinal = false := by rcases hs with ⟨h, -⟩ | ⟨h, -⟩ <;> rw [h] <;> rfl
  have hrun : job.state ≠ .running := by rcases hs with ⟨h, -⟩ | ⟨h, -⟩ <;> rw [h] <;> simp
  have hnone := hsound.holds_eq_none hrun
  rw [Site.concludeCanceled_eq _ _ (hsound.value_eq_none hlive)]
  set f := fun x : Job => x.ended (verdict true false 0 0) (job.outcome.written (Site.canceledResult job))
  have hnum : ∀ x, (f x).number = x.number := fun _ => rfl
  have hj' := Site.job?_update_self hnum _ _ hj
  have href : (l.site.update job.number f).IsRefused job.number :=
    ⟨Site.state?_eq hj', Site.canceledResult job, by rw [Site.result?, hj']; rfl, rfl, rfl⟩
  have o' : Orderly { l with site := l.site.update job.number f } none none := by
    refine o.advance hnum hj hlive (hsound.ended hlive rfl _ hnone) ?_ ?_ (fun h => by cases h) (fun h => by cases h)
      (fun _ => rfl) (.inl ⟨rfl, hrun⟩) (.inr href)
    · exact hs.imp And.right And.right
    · rcases hs with ⟨h, rfl⟩ | ⟨h, rfl⟩ <;> simp [h]
  exact ⟨o'.publish lane _, href⟩

/-- A build that waits takes the permit in its hand and runs. -/
theorem run (o : Orderly l (some b) (some lane.host)) (hj : l.site.job? b = some job) (hs : job.state = .waiting)
    (hr : (b, r) ∈ l.starts) : Orderly { l with site := l.site.run lane job r } none none := by
  obtain ⟨hmem, rfl⟩ := Rows.mem_of_job? hj
  have hsound := o.rows.sound job hmem
  have hnone := hsound.holds_eq_none (by simp [hs])
  set f := fun x : Job => { x with state := .running, holds := some lane.host }
  have hnum : ∀ x, (f x).number = x.number := fun _ => rfl
  have o' : Orderly { l with site := l.site.update job.number f } none none := by
    refine o.advance hnum hj (by rw [hs]; rfl) (hsound.runs hs _) (.inr rfl) (by simp [hs]) (by simp [f]) (by simp [f])
      (fun host => ?_) (.inl ⟨rfl, by simp [hs]⟩) (.inl ⟨r, hr⟩)
    have hf : (f job).holds = some lane.host := rfl
    simp [hnone, hf]
  refine (o'.publish lane [.started job.name job.startMessage]).tell hr (fun _ => ?_) fun h => by cases h
  exact Site.state?_eq (Site.job?_update_self hnum _ _ hj)

theorem setLock (o : Orderly l turn hand) {hand' : Option String} {host : String} {lock : Lock}
    (ht : lock.tickets = (l.site.lock host).tickets) (hb : Balanced (l.site.setLock host lock) hand') :
    Orderly { l with site := l.site.setLock host lock } turn hand' := by
  have hl : ∀ host', ((l.site.setLock host lock).lock host').tickets = (l.site.lock host').tickets := fun host' => by
    rw [Site.lock_setLock]
    split
    · next he => rw [he, ht]
    · rfl
  refine ⟨⟨o.rows.numbers, o.rows.sound⟩, hb, o.lined.same hl rfl fun _ => Iff.rfl, ?_⟩
  exact o.answers.same (fun _ => rfl) (fun _ => rfl) (fun host' => by rw [hl]; exact List.Subset.refl _)
    (Nat.le_refl _) (fun _ _ hm => hm) (fun _ hm => hm) rfl rfl

/-- A ticket leaves the line of a lock, and its build has its turn. -/
theorem leave (o : Orderly l none none) {hand' : Option String} {host : String} {lock : Lock} {t : Ticket}
    (ht : t ∈ (l.site.lock host).tickets)
    (hm : ∀ t', t' ∈ lock.tickets ↔ t' ∈ (l.site.lock host).tickets ∧ t' ≠ t) (hd : lock.tickets.Nodup)
    (hb : Balanced (l.site.setLock host lock) hand') :
    Orderly { l with site := l.site.setLock host lock } (some t.build) hand' := by
  have hall : ∀ host' t', t' ∈ ((l.site.setLock host lock).lock host').tickets ↔
      t' ∈ (l.site.lock host').tickets ∧ t' ≠ t := by
    intro host' t'
    rw [Site.lock_setLock]
    split
    · next he => rw [he, hm]
    · next he =>
      refine ⟨fun h => ⟨h, ?_⟩, fun h => h.1⟩
      rintro rfl
      exact he ((o.lined.placed _ _ h).1.symm.trans (o.lined.placed _ _ ht).1)
  refine ⟨⟨o.rows.numbers, o.rows.sound⟩, hb, ?_, ?_⟩
  · refine o.lined.leave ht hall (fun host' => ?_) rfl fun _ => rfl
    rw [Site.lock_setLock]
    split
    · exact hd
    · exact o.lined.nodup host'
  · exact o.answers.same (fun _ => rfl) (fun _ => rfl) (fun host' t' h => ((hall host' t').1 h).1)
      (Nat.le_refl _) (fun _ _ h => h) (fun _ h => h) rfl rfl

end Orderly

theorem Balanced.setLock {s : Site} {hand hand' : Option String} (h : Balanced s hand) {host : String} {lock : Lock}
    (hs : lock.free + lock.onItsWay + (if hand' = some host then 1 else 0) =
      (s.lock host).free + (s.lock host).onItsWay + (if hand = some host then 1 else 0))
    (ho : ∀ other, other ≠ host → (hand' = some other ↔ hand = some other)) : Balanced (s.setLock host lock) hand' := by
  intro other
  have hb := h other
  change _ + _ + s.holders other + _ = 1
  rw [Site.lock_setLock]
  split
  · next he =>
    subst he
    omega
  · next he =>
    simp only [ho other he]
    exact hb

namespace Orderly

variable {l : Ledger} {b r : Nat} {job : Job} {lane : Lane}

theorem release {turn : Option Nat} {host : String} (o : Orderly l turn (some host)) :
    Orderly { l with site := l.site.setLock host (l.site.lock host).release } turn none := by
  have hone := o.balanced host
  rw [if_pos rfl] at hone
  have hgiven := Lock.free_add_onItsWay_release (l := l.site.lock host) (by omega) (by omega)
  refine o.setLock (Lock.tickets_release (Lock.handed_eq_none.1 (by omega)))
    (o.balanced.setLock ?_ fun other hne => by simp [Ne.symm hne])
  rw [if_neg (by simp), if_pos rfl]
  omega

/-- A build whose turn it was goes to the end of the line. -/
theorem join (o : Orderly l (some b) none) {t : Ticket} (hb : t.build = b) (ht : t.number = l.site.tickets)
    (hs : l.site.state? b = some .waiting) (hr : (b, t.request) ∈ l.starts) {lock : Lock}
    (hl : lock = { l.site.lock t.lane.host with queue := (l.site.lock t.lane.host).queue ++ [t] }) :
    Orderly { l with site := { l.site.setLock t.lane.host lock with tickets := l.site.tickets + 1 } } none none := by
  subst hb
  have hlock : ∀ host, ((l.site.setLock t.lane.host lock).lock host).tickets =
      if host = t.lane.host then (l.site.lock host).tickets ++ [t] else (l.site.lock host).tickets := by
    intro host
    rw [Site.lock_setLock]
    split
    · next he => rw [he, hl, Lock.tickets, Lock.tickets, List.append_assoc]
    · rfl
  have hpermit : Balanced (l.site.setLock t.lane.host lock) none :=
    o.balanced.setLock (by rw [hl]; rfl) fun _ _ => Iff.rfl
  refine ⟨⟨o.rows.numbers, o.rows.sound⟩, hpermit, o.lined.join hs ht hlock rfl fun _ => rfl, ?_⟩
  refine ⟨o.answers.asked, o.answers.alone, fun host t' hm => ?_, o.answers.fresh, o.answers.yes, o.answers.no,
    o.answers.ended, o.answers.unasked, o.answers.unrefused⟩
  change t' ∈ ((l.site.setLock t.lane.host lock).lock host).tickets at hm
  rw [hlock] at hm
  split at hm
  · rcases List.mem_append.1 hm with hm | hm
    · exact o.answers.carried host t' hm
    · rw [List.mem_singleton.1 hm]
      exact hr
  · exact o.answers.carried host t' hm

theorem queue (o : Orderly l (some b) none) (hj : l.site.job? b = some job) (hs : job.state = .waiting)
    (hr : (b, r) ∈ l.starts) : Orderly { l with site := l.site.queue lane job r } none none := by
  unfold Site.queue
  dsimp only
  split
  · next hfree =>
    refine run (l := { l with site := l.site.setLock lane.host _ }) ?_ hj hs hr
    refine o.setLock rfl (o.balanced.setLock ?_ fun other hne => by simp [Ne.symm hne])
    simp only [Lock.free, hfree]
    simp [Lock.onItsWay, Nat.add_comm]
  · obtain ⟨-, rfl⟩ := Rows.mem_of_job? hj
    refine o.join (t := ⟨l.site.tickets, job.number, r, lane, l.site.now + lane.pollMs⟩) rfl rfl ?_ hr rfl
    rw [Site.state?_eq hj, hs]

/-- A build whose turn it is is refused, runs or waits. -/
theorem look (o : Orderly l (some b) none) (hj : l.site.job? b = some job) (hs : job.state = .waiting)
    (hr : (b, r) ∈ l.starts) : Orderly { l with site := l.site.look lane job r } none none := by
  cases hc : l.site.isCanceled job with
  | true =>
    obtain ⟨o', href⟩ := o.refuse lane hj (.inr ⟨hs, rfl⟩)
    have hv := (o.rows.sound job (Rows.mem_of_job? hj).1).value_eq_none (by rw [hs]; rfl)
    rw [Site.look_of_isCanceled hv hc]
    exact o'.tell hr (fun h => by cases h) fun _ => href
  | false =>
    rw [Site.look_of_not_isCanceled hc]
    exact o.queue hj hs hr

theorem seated (o : Orderly l none none) {host : String} {t : Ticket} (ht : t ∈ (l.site.lock host).tickets) :
    t.lane.host = host ∧ (t.build, t.request) ∈ l.starts ∧
      ∃ job, l.site.job? t.build = some job ∧ job.state = .waiting := by
  refine ⟨(o.lined.placed _ _ ht).1, o.answers.carried _ _ ht, ?_⟩
  have hw := ((o.lined.seated_iff _).1 ⟨host, t, ht, rfl⟩).1
  unfold Site.state? at hw
  obtain ⟨job, hj, hs⟩ := Option.map_eq_some_iff.1 hw
  exact ⟨job, hj, hs⟩

theorem leave_queue (o : Orderly l none none) {t : Ticket} (hq : t ∈ (l.site.lock t.lane.host).queue) :
    Orderly { l with site := l.site.setLock t.lane.host ((l.site.lock t.lane.host).leave t.number) } (some t.build)
      none := by
  have ht : t ∈ (l.site.lock t.lane.host).tickets := List.mem_append_right _ hq
  have hd := o.lined.nodup t.lane.host
  refine o.leave ht (fun t' => ?_) ?_ (o.balanced.setLock rfl fun _ _ => Iff.rfl)
  · simp only [Lock.tickets, Lock.leave, List.mem_append, List.mem_filter, decide_eq_true_eq, Option.mem_toList]
    constructor
    · rintro (h | ⟨h, hne⟩)
      · refine ⟨.inl h, ?_⟩
        rintro rfl
        exact (List.disjoint_of_nodup_append hd) (by simpa using h) hq
      · exact ⟨.inr h, fun he => hne (by rw [he])⟩
    · rintro ⟨h | h, hne⟩
      · exact .inl h
      · exact .inr ⟨h, fun he => hne (o.lined.apart _ _ _ _ (List.mem_append_right _ h) ht (.inr he))⟩
  · refine hd.sublist (List.Sublist.append (List.Sublist.refl _) ?_)
    exact List.filter_sublist

theorem mem_tickets_of_handed {s : Site} {host : String} {t : Ticket} (hh : (s.lock host).handed = some t) :
    t ∈ (s.lock host).tickets :=
  List.mem_append_left _ (Option.mem_toList.2 hh)

theorem queue_of_handed (o : Orderly l none none) {host : String} {t : Ticket}
    (hh : (l.site.lock host).handed = some t) :
    (l.site.lock host).queue.Nodup ∧
      ∀ t', t' ∈ (l.site.lock host).queue ↔ t' ∈ (l.site.lock host).tickets ∧ t' ≠ t := by
  have hd := o.lined.nodup host
  rw [Lock.tickets, hh, Option.toList_some, List.singleton_append, List.nodup_cons] at hd
  refine ⟨hd.2, fun t' => ?_⟩
  simp only [Lock.tickets, hh, Option.toList_some, List.singleton_append, List.mem_cons]
  exact ⟨fun h => ⟨.inr h, fun he => hd.1 (he ▸ h)⟩, fun h => h.1.resolve_left h.2⟩

/-- The waiter to whom a lock was handed leaves the line with the permit in his hand. -/
theorem leave_handed (o : Orderly l none none) {host : String} {t : Ticket}
    (hh : (l.site.lock host).handed = some t) :
    Orderly { l with site := l.site.setLock host { l.site.lock host with handed := none } } (some t.build)
      (some host) := by
  obtain ⟨hd, hm⟩ := o.queue_of_handed hh
  refine o.leave (mem_tickets_of_handed hh) hm hd (o.balanced.setLock ?_ fun other hne => by simp [Ne.symm hne])
  rw [Lock.onItsWay_of_handed hh]
  simp [Lock.free, Lock.onItsWay]

/-- The waiter to whom a lock was handed leaves the line, and the permit goes to the next. -/
theorem leave_given (o : Orderly l none none) {host : String} {t : Ticket}
    (hh : (l.site.lock host).handed = some t) :
    Orderly { l with site := l.site.setLock host ({ l.site.lock host with handed := none } : Lock).release }
      (some t.build) none := by
  obtain ⟨hd, hm⟩ := o.queue_of_handed hh
  set lock : Lock := { l.site.lock host with handed := none }
  have htickets : lock.release.tickets = (l.site.lock host).queue := Lock.tickets_release rfl
  have hone := o.balanced host
  rw [Lock.onItsWay_of_handed hh] at hone
  have hfree : (l.site.lock host).free = 0 := by omega
  have hgiven : lock.release.free + lock.release.onItsWay = 1 := Lock.free_add_onItsWay_release hfree rfl
  refine o.leave (mem_tickets_of_handed hh) (by rw [htickets]; exact hm) (by rw [htickets]; exact hd)
    (o.balanced.setLock ?_ fun _ _ => Iff.rfl)
  rw [hgiven, Lock.onItsWay_of_handed hh, hfree]

end Orderly

/-! The three moves of a waiter, from his place in line. -/

namespace Site

variable {s : Site} {t : Ticket} {host : String} {job : Job}

theorem expire_eq (hq : t ∈ (s.lock t.lane.host).queue) (hj : s.job? t.build = some job) :
    s.expire t = (s.setLock t.lane.host ((s.lock t.lane.host).leave t.number)).look t.lane job t.request := by
  have hj' : (s.setLock t.lane.host ((s.lock t.lane.host).leave t.number)).job? t.build = some job := hj
  unfold expire
  simp only [List.contains_iff_mem, hq, if_true, hj']

theorem take_eq (hh : (s.lock host).handed = some t) (hj : s.job? t.build = some job) :
    s.take host = (s.setLock host { s.lock host with handed := none }).run t.lane job t.request := by
  have hj' : (s.setLock host { s.lock host with handed := none }).job? t.build = some job := hj
  unfold take
  rw [hh]
  simp only [hj']

theorem giveBack_eq (hh : (s.lock host).handed = some t) (hj : s.job? t.build = some job) :
    s.giveBack host =
      (s.setLock host ({ s.lock host with handed := none } : Lock).release).look t.lane job t.request := by
  have hj' : (s.setLock host ({ s.lock host with handed := none } : Lock).release).job? t.build = some job := hj
  unfold giveBack
  rw [hh]
  simp only [hj']

end Site

namespace Orderly

variable {l : Ledger} {job : Job}

theorem expire (o : Orderly l none none) (t : Ticket) : Orderly { l with site := l.site.expire t } none none := by
  by_cases hq : t ∈ (l.site.lock t.lane.host).queue
  · obtain ⟨-, hr, job, hj, hs⟩ := o.seated (List.mem_append_right _ hq)
    rw [Site.expire_eq hq hj]
    exact (o.leave_queue hq).look hj hs hr
  · unfold Site.expire
    simp only [List.contains_iff_mem, hq, if_false]
    exact o

theorem take (o : Orderly l none none) (host : String) : Orderly { l with site := l.site.take host } none none := by
  cases hh : (l.site.lock host).handed with
  | none =>
    unfold Site.take
    rw [hh]
    exact o
  | some t =>
    obtain ⟨rfl, hr, job, hj, hs⟩ := o.seated (mem_tickets_of_handed hh)
    rw [Site.take_eq hh hj]
    exact (o.leave_handed hh).run hj hs hr

theorem giveBack (o : Orderly l none none) (host : String) :
    Orderly { l with site := l.site.giveBack host } none none := by
  cases hh : (l.site.lock host).handed with
  | none =>
    unfold Site.giveBack
    rw [hh]
    exact o
  | some t =>
    obtain ⟨-, hr, job, hj, hs⟩ := o.seated (mem_tickets_of_handed hh)
    rw [Site.giveBack_eq hh hj]
    exact (o.leave_given hh).look hj hs hr

theorem cancel_idle (o : Orderly l none none) (lane : Lane) {b : Nat} (hs : l.site.state? b = some .idle) :
    Orderly { l with site := l.site.cancel lane b } none none ∧ (l.site.cancel lane b).IsRefused b := by
  have o' : Orderly { l with site := l.site.update b fun x => { x with isCanceled := true } } none none :=
    o.update (fun _ => by rfl) (fun _ => by rfl) (fun _ => by rfl) (fun _ => by rfl) b
  obtain ⟨job, hj, hidle⟩ := Option.map_eq_some_iff.1 hs
  have hj' : (l.site.update b fun x => { x with isCanceled := true }).job? b = some { job with isCanceled := true } := by
    rw [Site.job?_update fun _ => by rfl, if_pos rfl, hj]
    rfl
  unfold Site.cancel
  simp only [hj']
  rw [if_pos hidle]
  exact o'.refuse lane hj' (.inl ⟨hidle, rfl⟩)

theorem cancel (o : Orderly l none none) (lane : Lane) (b : Nat) :
    Orderly { l with site := l.site.cancel lane b } none none := by
  by_cases hs : l.site.state? b = some .idle
  · exact (o.cancel_idle lane hs).1
  · have o' : Orderly { l with site := l.site.update b fun x => { x with isCanceled := true } } none none :=
      o.update (fun _ => by rfl) (fun _ => by rfl) (fun _ => by rfl) (fun _ => by rfl) b
    unfold Site.cancel
    dsimp only
    split
    · next job hj =>
      have hidle : job.state ≠ .idle := fun h => hs <| by
        rw [Site.job?_update fun _ => by rfl, if_pos rfl] at hj
        obtain ⟨x, hx, rfl⟩ := Option.map_eq_some_iff.1 hj
        simpa [Site.state?, hx] using h
      rw [if_neg hidle]
      exact o'
    · exact o'

theorem finish (o : Orderly l none none) (lane : Lane) {b : Nat} (hb : l.Returned b true ∧ b ∉ l.ends)
    (succeeded : Bool) :
    Orderly ⟨(l.site.finish lane b succeeded).1, l.starts, b :: l.ends⟩ none none ∧
      ∃ result, (l.site.finish lane b succeeded).2 = .ok result := by
  obtain ⟨⟨r, hr, hyes⟩, hopen⟩ := hb
  have hst := (o.answers.yes b r hr hyes).resolve_right hopen
  obtain ⟨job, hj, hs⟩ := Option.map_eq_some_iff.1 hst
  obtain ⟨hmem, rfl⟩ := Rows.mem_of_job? hj
  have hsound := o.rows.sound job hmem
  have hlive : job.state.isFinal = false := by rw [hs]; rfl
  obtain ⟨host, hh⟩ := Option.isSome_iff_exists.1 (hsound.running_iff.1 hs)
  rw [Site.finish_eq l.site lane hj hh (hsound.value_eq_none hlive) succeeded rfl rfl]
  set v := verdict (l.site.isCanceled job) succeeded job.errors job.warnings
  set result := job.result succeeded (l.site.isCanceled job) v.message
  set f := fun x : Job => ({ x with holds := none } : Job).ended v (job.outcome.written result)
  have hnum : ∀ x, (f x).number = x.number := fun _ => rfl
  have hfinal : (f job).state.isFinal = true := verdict_isFinal ..
  -- the permit that the build held is in hand until the lock is released
  have o' : Orderly ⟨l.site.update job.number f, l.starts, job.number :: l.ends⟩ none (some host) := by
    refine o.advance hnum hj hlive (hsound.ended hlive hfinal _ rfl) (.inl rfl) (by simp [hs])
      (fun he => by simp [he, State.isFinal] at hfinal) (fun he => by simp [he, State.isFinal] at hfinal)
      (fun other => ?_) (.inr ⟨rfl, hfinal⟩) (.inl ⟨r, hr⟩)
    have hf : (f job).holds = none := rfl
    simp [hh, hf]
  refine ⟨o'.release.publish lane _, result, rfl⟩

end Orderly

namespace Site

def opened (s : Site) (b : Nat) : Site :=
  ({ s with requests := s.requests + 1 } : Site).update b fun x => { x with state := .waiting }

theorem job?_opened (s : Site) (b n : Nat) :
    (s.opened b).job? n = if n = b then (s.job? b).map (fun x => { x with state := .waiting }) else s.job? n :=
  job?_update (fun _ => by rfl) _ b n

theorem request_of_idle {s : Site} {job : Job} (hj : s.job? job.number = some job) (hs : job.state = .idle)
    (lane : Lane) :
    (s.request lane job.number).1 = (s.opened job.number).look lane { job with state := .waiting } s.requests := by
  have hj' : ({ s with requests := s.requests + 1 } : Site).job? job.number = some job := hj
  unfold request opened
  simp only [hj', hs, if_true]

theorem request_of_not_idle {s : Site} {job : Job} (hj : s.job? job.number = some job) (hs : job.state ≠ .idle)
    (lane : Lane) :
    (s.request lane job.number).1 =
      ({ s with requests := s.requests + 1 } : Site).notify [.answered s.requests false] := by
  have hj' : ({ s with requests := s.requests + 1 } : Site).job? job.number = some job := hj
  unfold request
  simp only [hj', hs, if_false]

end Site

namespace Orderly

variable {l : Ledger} {job : Job}

theorem opened (o : Orderly l none none) (hj : l.site.job? job.number = some job) (hs : job.state = .idle)
    (hnew : ∀ r, (job.number, r) ∉ l.starts) :
    Orderly ⟨l.site.opened job.number, (job.number, l.site.requests) :: l.starts, l.ends⟩ (some job.number) none := by
  have hst : l.site.state? job.number = some .idle := by simp [Site.state?, hj, hs]
  have hst' : ∀ n, (l.site.opened job.number).state? n =
      if n = job.number then some .waiting else l.site.state? n := fun n => by
    rw [Site.state?, Site.job?_opened, hj]
    split <;> rfl
  refine ⟨Rows.update (s := { l.site with requests := l.site.requests + 1 }) ⟨o.rows.numbers, o.rows.sound⟩
    (fun _ => by rfl) fun x hx => ?_, fun host => ?_, ?_, ?_⟩
  · obtain rfl : job = x := Option.some_inj.1 (hj.symm.trans hx)
    exact (o.rows.sound job (Rows.mem_of_job? hj).1).waits hs
  · have hh : (l.site.opened job.number).holders host = l.site.holders host :=
      Site.holders_update_of_holds_eq (fun _ => by rfl) _ _ _
    dsimp only
    rw [hh]
    exact o.balanced host
  · refine o.lined.same (fun _ => rfl) rfl fun n => ?_
    dsimp only
    rw [hst']
    split
    · next he => simp [he, hst]
    · next he => simp [Ne.symm he]
  · refine o.answers.ask hst hnew (by rw [hst', if_pos rfl]) (by simp) (.inl rfl)
      (fun n hn => by rw [hst', if_neg hn]) (fun n => ?_) (fun _ => rfl) rfl rfl rfl rfl
    rw [Site.result?, Site.job?_opened]
    split
    · next he => rw [he, hj, Site.result?, hj]; rfl
    · rfl

theorem request_new (o : Orderly l none none) (lane : Lane) (hj : l.site.job? job.number = some job)
    (hnew : ∀ r, (job.number, r) ∉ l.starts) :
    Orderly ⟨(l.site.request lane job.number).1, (job.number, l.site.requests) :: l.starts, l.ends⟩ none none := by
  by_cases hs : job.state = .idle
  · rw [Site.request_of_idle hj hs]
    refine (o.opened hj hs hnew).look ?_ rfl List.mem_cons_self
    rw [Site.job?_opened, if_pos rfl, hj]
    rfl
  · rw [Site.request_of_not_idle hj hs]
    have hst : l.site.state? job.number = some job.state := by simp [Site.state?, hj]
    have href : l.site.IsRefused job.number := (o.answers.unasked _ _ hst hnew).resolve_left hs
    have a : Answers ⟨{ l.site with requests := l.site.requests + 1 }, (job.number, l.site.requests) :: l.starts,
        l.ends⟩ :=
      o.answers.ask hst hnew hst hs (.inr rfl) (fun _ _ => rfl) (fun _ => rfl) (fun _ => rfl) rfl rfl rfl rfl
    have o' : Orderly ⟨{ l.site with requests := l.site.requests + 1 }, (job.number, l.site.requests) :: l.starts,
        l.ends⟩ none none :=
      ⟨⟨o.rows.numbers, o.rows.sound⟩, o.balanced, ⟨o.lined.seated_iff, o.lined.placed, o.lined.apart,
        o.lined.nodup⟩, a⟩
    exact o'.tell List.mem_cons_self (fun h => by cases h) fun _ => href

/-- A build that was to start before is told no, and that is all. -/
theorem request_again (o : Orderly l none none) (lane : Lane) (hj : l.site.job? job.number = some job) {r : Nat}
    (hr : (job.number, r) ∈ l.starts) :
    Orderly { l with site := (l.site.request lane job.number).1 } none none := by
  obtain ⟨-, st, hst, hidle⟩ := o.answers.asked _ r hr
  obtain rfl : job.state = st := Option.some_inj.1 ((Site.state?_eq hj).symm.trans hst)
  rw [Site.request_of_not_idle hj hidle]
  have o' : Orderly { l with site := { l.site with requests := l.site.requests + 1 } } none none :=
    o.same ⟨o.rows.numbers, o.rows.sound⟩ (fun _ => rfl) (fun _ => rfl) (fun _ => rfl) (fun _ => rfl) rfl
      (Nat.le_succ _) fun n hn => .inl hn
  refine o'.answer (Nat.lt_succ_self _) (fun _ _ h => by cases h) fun b hb _ => ?_
  exact absurd (o.answers.asked b _ hb).1 (Nat.lt_irrefl _)

theorem request (o : Orderly l none none) (lane : Lane) {b : Nat} (hb : (l.site.job? b).isSome) :
    Orderly ⟨(l.site.request lane b).1, l.noteStart b, l.ends⟩ none none := by
  obtain ⟨job, hj⟩ := Option.isSome_iff_exists.1 hb
  obtain ⟨-, rfl⟩ := Rows.mem_of_job? hj
  obtain ⟨hnew, he⟩ | ⟨r, hr, he⟩ := l.noteStart_cases job.number
  · rw [he]
    exact o.request_new lane hj hnew
  · rw [he]
    exact o.request_again lane hj hr

end Orderly

/-- A build more: it is idle, and the others are where they were. -/
theorem Rows.job?_newJob {s : Site} (h : Rows s) (project : Project) (task : String) (isTest : Bool)
    (parent : Option Nat) : ∃ job : Job, job.state = .idle ∧ job.holds = none ∧ job.Sound ∧
      job.number = s.jobs.length + 1 ∧ (s.newJob project task isTest parent).1.jobs = s.jobs ++ [job] ∧
      s.job? (s.jobs.length + 1) = none ∧
      ∀ n, (s.newJob project task isTest parent).1.job? n =
        if n = s.jobs.length + 1 then some job else s.job? n := by
  have hnone : s.job? (s.jobs.length + 1) = none := by
    refine List.find?_eq_none.2 fun x hx => ?_
    have hmem : x.number ∈ s.jobs.map Job.number := List.mem_map_of_mem hx
    rw [h.numbers, List.mem_range'_1] at hmem
    simp only [decide_eq_true_eq]
    omega
  refine ⟨_, rfl, rfl, ⟨by simp, by simp [Readership.empty, Once.empty, State.isFinal], by
    simp [Readership.empty, Once.empty, State.isFinal]⟩, rfl, rfl, hnone, fun n => ?_⟩
  unfold Site.job? at hnone ⊢
  simp only [Site.newJob, List.find?_append]
  split
  · next he =>
    subst he
    simp [hnone]
  · next he => simp [Ne.symm he]

namespace Orderly

variable {l : Ledger}

theorem create (o : Orderly l none none) (project : Project) (task : String) (isTest : Bool) (parent : Option Nat) :
    Orderly { l with site := (l.site.newJob project task isTest parent).1 } none none := by
  obtain ⟨job, hs, hh, hsound, hnumber, hjobs, hnone, hjob⟩ := o.rows.job?_newJob project task isTest parent
  set s := (l.site.newJob project task isTest parent).1
  have hst : ∀ n, s.state? n = if n = l.site.jobs.length + 1 then some .idle else l.site.state? n := fun n => by
    unfold Site.state?
    rw [hjob]
    split
    · simp [hs]
    · rfl
  have hnone' : l.site.state? (l.site.jobs.length + 1) = none := by simp [Site.state?, hnone]
  have hkeep : ∀ n x, l.site.state? n = some x → s.state? n = some x ∧ s.result? n = l.site.result? n := fun n x hx => by
    have hne : n ≠ l.site.jobs.length + 1 := fun he => by simp [he, hnone'] at hx
    exact ⟨by rw [hst, if_neg hne, hx], by rw [Site.result?, hjob, if_neg hne]; rfl⟩
  refine ⟨⟨?_, fun x hx => ?_⟩, fun host => ?_, ?_, ?_⟩
  · change s.jobs.map Job.number = List.range' 1 s.jobs.length
    rw [hjobs, List.map_append, o.rows.numbers, List.length_append, List.length_singleton, List.range'_1_concat]
    simp [hnumber, Nat.add_comm]
  · rcases List.mem_append.1 (hjobs ▸ hx) with hx | hx
    · exact o.rows.sound x hx
    · rw [List.mem_singleton.1 hx]
      exact hsound
  · have hcount : s.holders host = l.site.holders host := by
      unfold Site.holders
      rw [hjobs, List.countP_append]
      simp [hh]
    change _ + _ + s.holders host + _ = 1
    rw [hcount]
    exact o.balanced host
  · refine o.lined.same (fun _ => rfl) rfl fun n => ?_
    change (s.state? n = _ ∧ _) ↔ _
    rw [hst]
    split
    · next he => simp [he, hnone']
    · rfl
  · refine o.answers.grow hkeep (fun n x hx => ?_) (fun _ => rfl) rfl rfl
    rw [hst] at hx
    split at hx
    · exact .inr (Option.some_inj.1 hx).symm
    · exact .inl hx

/-- The moves that callers may make keep a site in order. -/
theorem after (o : Orderly l none none) {m : Move} (hm : l.Allows m) : Orderly (l.after m) none none := by
  cases m with
  | create project task isTest parent => exact o.create project task isTest parent
  | start lane build => exact o.request lane hm
  | expire ticket => exact o.expire ticket
  | take host => exact o.take host
  | giveBack host => exact o.giveBack host
  | cancel lane build => exact o.cancel lane build
  | cancelToken token =>
    exact o.same ⟨o.rows.numbers, o.rows.sound⟩ (fun _ => rfl) (fun _ => rfl) (fun _ => rfl) (fun _ => rfl) rfl
      (Nat.le_refl _) fun n hn => .inl hn
  | finish lane build succeeded => exact (o.finish lane hm succeeded).1
  | progress lane build message => exact o.publish lane _
  | addErrors build n =>
    exact o.update (f := fun x => { x with errors := x.errors + UInt32.ofNat n }) (fun _ => rfl) (fun _ => rfl)
      (fun _ => rfl) (fun _ => rfl) build
  | addWarnings build n =>
    exact o.update (f := fun x => { x with warnings := x.warnings + UInt32.ofNat n }) (fun _ => rfl) (fun _ => rfl)
      (fun _ => rfl) (fun _ => rfl) build
  | store build artifacts =>
    exact o.update (f := fun x => { x with artifacts := artifacts }) (fun _ => rfl) (fun _ => rfl) (fun _ => rfl)
      (fun _ => rfl) build
  | awaitResult build =>
    exact o.update (f := fun x => { x with outcome := x.outcome.join }) (fun _ => rfl) (fun _ => rfl) (fun _ => rfl)
      (fun _ => rfl) build
  | serveReaders build =>
    exact o.update (f := fun x => { x with outcome := x.outcome.settle }) (fun _ => rfl) (fun _ => rfl) (fun _ => rfl)
      (fun _ => rfl) build
  | wait ms =>
    exact o.same ⟨o.rows.numbers, o.rows.sound⟩ (fun _ => rfl) (fun _ => rfl) (fun _ => rfl) (fun _ => rfl) rfl
      (Nat.le_refl _) fun n hn => .inl hn

theorem start : Orderly .start none none := by
  have hl : ∀ host, Site.start.lock host = .fresh := fun _ => rfl
  have hs : ∀ n, Site.start.state? n = none := fun _ => rfl
  have hn : Site.start.notices = [] := rfl
  refine ⟨⟨rfl, by simp [Ledger.start, Site.start]⟩, fun host => ?_, ⟨fun b => ?_, ?_, ?_, ?_⟩,
    ⟨?_, ?_, ?_, ?_, ?_, ?_, ?_, ?_, ?_⟩⟩
  · change (Site.start.lock host).free + (Site.start.lock host).onItsWay + 0 + 0 = 1
    simp [hl, Lock.fresh]
  all_goals simp [Ledger.start, hl, hs, hn, Lock.fresh, Lock.tickets]

end Orderly

/-- Every course from the start keeps the site in order. -/
theorem Course.orderly {moves : List Move} {l : Ledger} (h : Course .start moves l) : Orderly l none none := by
  induction h with
  | nil => exact .start
  | snoc _ hm ih => exact ih.after hm

end CrateYard.Build
