import CrateYard.Proofs.Build.Order

/-! A move is the turn of one build at most. For every other build nothing is seen to change: it is where it was, with
the result and the marks it had, and once it is canceled it stays so. -/

namespace CrateYard.Build

theorem idText_inj {a b : Nat} : idText a = idText b ↔ a = b := by
  refine ⟨fun h => ?_, fun h => by rw [h]⟩
  have hr : a.repr = b.repr := by
    have := congrArg String.toList h
    simp only [idText, String.toList_append, List.append_cancel_left_eq] at this
    exact String.toList_inj.1 this
  rw [← @Nat.ofDigitChars_ten_toDigits a, ← @Nat.ofDigitChars_ten_toDigits b, ← Nat.toList_repr, ← Nat.toList_repr, hr]

def Progress.isMark : Progress → Bool
  | .progress _ _ => false
  | _ => true

def Notice.mark? (b : Nat) : Notice → Option Progress
  | .published _ e => if e.id = idText b ∧ e.isMark = true then some e else none
  | _ => none

namespace Site

def marks (s : Site) (b : Nat) : List Progress :=
  s.notices.filterMap (Notice.mark? b)

def IsCanceled (s : Site) (b : Nat) : Prop :=
  ∃ job, s.job? b = some job ∧ s.isCanceled job = true

theorem mem_marks {s : Site} {b : Nat} {e : Progress} :
    e ∈ s.marks b ↔ ∃ lane, .published lane e ∈ s.notices ∧ e.id = idText b ∧ e.isMark = true := by
  unfold marks
  rw [List.mem_filterMap]
  constructor
  · rintro ⟨n, hn, he⟩
    cases n with
    | published lane e' =>
      simp only [Notice.mark?, Option.ite_none_right_eq_some, Option.some.injEq] at he
      obtain ⟨hid, rfl⟩ := he
      exact ⟨lane, hn, hid⟩
    | _ => cases he
  · rintro ⟨lane, hn, hid⟩
    exact ⟨_, hn, by simp [Notice.mark?, hid]⟩

theorem marks_notify (s : Site) (notices : List Notice) (b : Nat) :
    (s.notify notices).marks b = s.marks b ++ notices.filterMap (Notice.mark? b) := by
  simp [marks, notify]

end Site

/-- What is seen of a build does not change. -/
structure Keeps (b : Nat) (s s' : Site) : Prop where
  state : s'.state? b = s.state? b
  result : s'.result? b = s.result? b
  marks : s'.marks b = s.marks b
  canceled : s.IsCanceled b → s'.IsCanceled b

namespace Keeps

variable {b : Nat} {s s' s'' : Site} {lane : Lane} {job : Job}

theorem refl (b : Nat) (s : Site) : Keeps b s s := ⟨rfl, rfl, rfl, id⟩

theorem trans (h : Keeps b s s') (h' : Keeps b s' s'') : Keeps b s s'' :=
  ⟨h'.state.trans h.state, h'.result.trans h.result, h'.marks.trans h.marks, fun hc => h'.canceled (h.canceled hc)⟩

theorem update_ne (s : Site) {n : Nat} (hn : n ≠ b) {f : Job → Job} (hf : ∀ x, (f x).number = x.number) :
    Keeps b s (s.update n f) := by
  have hj : (s.update n f).job? b = s.job? b := by rw [Site.job?_update hf, if_neg (Ne.symm hn)]
  refine ⟨by rw [Site.state?, hj]; rfl, by rw [Site.result?, hj]; rfl, rfl, ?_⟩
  rintro ⟨job, hjob, hc⟩
  exact ⟨job, hj.trans hjob, hc⟩

theorem update (s : Site) (n : Nat) {f : Job → Job} (hf : ∀ x, (f x).number = x.number)
    (hs : ∀ x, (f x).state = x.state) (hc : ∀ x, (f x).outcome.cell = x.outcome.cell)
    (hp : ∀ x, (f x).parent = x.parent) (hi : ∀ x, x.isCanceled = true → (f x).isCanceled = true) :
    Keeps b s (s.update n f) := by
  by_cases hn : n = b
  · subst hn
    have hj : (s.update n f).job? n = (s.job? n).map f := by rw [Site.job?_update hf, if_pos rfl]
    refine ⟨?_, ?_, rfl, ?_⟩
    · rw [Site.state?, hj, Site.state?]
      cases s.job? n <;> simp [hs]
    · rw [Site.result?, hj, Site.result?]
      cases s.job? n <;> simp [hc]
    · rintro ⟨job, hjob, hcan⟩
      refine ⟨f job, by rw [hj, hjob]; rfl, ?_⟩
      simp only [Site.isCanceled, Bool.or_eq_true] at hcan ⊢
      rw [hp]
      exact hcan.imp_left (hi job)
  · exact update_ne s hn hf

theorem setLock (s : Site) (host : String) (l : Lock) : Keeps b s (s.setLock host l) :=
  ⟨rfl, rfl, rfl, id⟩

theorem notify (s : Site) {notices : List Notice} (h : ∀ n ∈ notices, n.mark? b = none) :
    Keeps b s (s.notify notices) := by
  refine ⟨rfl, rfl, ?_, id⟩
  rw [Site.marks_notify, List.filterMap_eq_nil_iff.2 h, List.append_nil]

theorem create (h : Rows s) (hb : s.state? b ≠ none) (project : Project) (task : String) (isTest : Bool)
    (parent : Option Nat) : Keeps b s (s.newJob project task isTest parent).1 := by
  obtain ⟨job, -, -, -, -, -, hnone, hjob⟩ := h.job?_newJob project task isTest parent
  have hne : b ≠ s.jobs.length + 1 := fun he => hb (by simp [Site.state?, he, hnone])
  have hj : (s.newJob project task isTest parent).1.job? b = s.job? b := by rw [hjob, if_neg hne]
  refine ⟨by rw [Site.state?, hj]; rfl, by rw [Site.result?, hj]; rfl, rfl, ?_⟩
  rintro ⟨x, hx, hc⟩
  exact ⟨x, hj.trans hx, hc⟩

end Keeps

/-- The build whose turn a move is, if it is the turn of one. -/
def Move.turn? (s : Site) : Move → Option Nat
  | .start _ build => if s.state? build = some .idle then some build else none
  | .expire ticket => if ticket ∈ (s.lock ticket.lane.host).queue then some ticket.build else none
  | .take host => (s.lock host).handed.map Ticket.build
  | .giveBack host => (s.lock host).handed.map Ticket.build
  | .cancel _ build => if s.state? build = some .idle then some build else none
  | .finish _ build _ => some build
  | _ => none

/-- The host whose lock a move may change. -/
def Move.host? (s : Site) : Move → Option String
  | .start lane _ => some lane.host
  | .expire ticket => some ticket.lane.host
  | .take host => some host
  | .giveBack host => some host
  | .finish _ build _ => (s.job? build).bind Job.holds
  | _ => none

/-- What becomes of a site when one build has its turn at one host: nothing of another build is seen to change, nor
the lock of another host, and nothing that was announced is taken back. -/
inductive Touches (turn : Option Nat) (host : Option String) (s : Site) : Site → Prop where
  | refl : Touches turn host s s
  | update {s' : Site} {n : Nat} {f : Job → Job} : Touches turn host s s' → turn = some n →
      (∀ x, (f x).number = x.number) → Touches turn host s (s'.update n f)
  | adjust {s' : Site} {f : Job → Job} (n : Nat) : Touches turn host s s' → (∀ x, (f x).number = x.number) →
      (∀ x, (f x).state = x.state) → (∀ x, (f x).outcome.cell = x.outcome.cell) → (∀ x, (f x).parent = x.parent) →
      (∀ x, x.isCanceled = true → (f x).isCanceled = true) → Touches turn host s (s'.update n f)
  | setLock {s' : Site} {h : String} (l : Lock) : Touches turn host s s' → host = some h →
      Touches turn host s (s'.setLock h l)
  | notify {s' : Site} {notices : List Notice} : Touches turn host s s' →
      (∀ b, turn ≠ some b → ∀ n ∈ notices, n.mark? b = none) → Touches turn host s (s'.notify notices)
  | count {s' : Site} (now tickets requests : Nat) {canceled : List Nat} : Touches turn host s s' →
      s'.canceled ⊆ canceled →
      Touches turn host s { s' with now := now, tickets := tickets, requests := requests, canceled := canceled }

namespace Touches

variable {turn : Option Nat} {host : Option String} {s s' : Site} {lane : Lane} {job : Job}

theorem keeps (h : Touches turn host s s') {b : Nat} (hb : turn ≠ some b) : Keeps b s s' := by
  induction h with
  | refl => exact .refl b s
  | update _ hn hf ih => exact ih.trans (.update_ne _ (fun he => hb (by rw [hn, he])) hf)
  | adjust n _ hf hs hc hp hi ih => exact ih.trans (.update _ n hf hs hc hp hi)
  | setLock l _ _ ih => exact ih.trans (.setLock _ _ l)
  | notify _ hn ih => exact ih.trans (.notify _ (hn b hb))
  | count _ _ _ _ hsub ih =>
    refine ih.trans ⟨rfl, rfl, rfl, fun ⟨job, hj, hc⟩ => ⟨job, hj, ?_⟩⟩
    simp only [Site.isCanceled, Bool.or_eq_true, Option.any_eq_true, List.contains_iff_mem] at hc ⊢
    exact hc.imp_right fun ⟨p, hp, hmem⟩ => ⟨p, hp, hsub hmem⟩

theorem lock (h : Touches turn host s s') {other : String} (hh : host ≠ some other) :
    s'.lock other = s.lock other := by
  induction h with
  | setLock l _ he ih => rw [Site.lock_setLock, if_neg fun hc => hh (by rw [he, hc]), ih]
  | refl => rfl
  | update _ _ _ ih | adjust _ _ _ _ _ _ _ ih | notify _ _ ih | count _ _ _ _ _ ih => exact ih

theorem notices (h : Touches turn host s s') : s.notices <+: s'.notices := by
  induction h with
  | notify _ _ ih => exact ih.trans (List.prefix_append _ _)
  | refl => exact List.prefix_refl _
  | update _ _ _ ih | adjust _ _ _ _ _ _ _ ih | setLock _ _ _ ih | count _ _ _ _ _ ih => exact ih

theorem publish (h : Touches turn host s s') (ht : turn = some job.number) {events : List Progress}
    (he : ∀ e ∈ events, e.id = job.name) : Touches turn host s (s'.publish lane events) := by
  refine h.notify fun b hb n hn => ?_
  obtain ⟨e, hm, rfl⟩ := List.mem_map.1 hn
  have hid : e.id ≠ idText b := fun h => hb (by rw [ht, idText_inj.1 ((he e hm).symm.trans h)])
  simp [Notice.mark?, hid]

theorem answer (h : Touches turn host s s') (r : Nat) (ok : Bool) :
    Touches turn host s (s'.notify [.answered r ok]) :=
  h.notify fun _ _ => by simp [Notice.mark?]

theorem conclude (h : Touches turn host s s') (ht : turn = some job.number) (v : Verdict) {result : Result}
    (hr : result.id = job.name) : Touches turn host s (s'.conclude lane job v result).1 := by
  unfold Site.conclude
  dsimp only
  split
  · exact (h.update ht fun _ => by rfl).notify fun _ _ => by simp [Notice.mark?]
  · exact ((h.update ht fun _ => by rfl).update ht fun _ => by rfl).publish ht (by simp [Progress.id, hr])

theorem run (h : Touches turn host s s') (ht : turn = some job.number) (r : Nat) :
    Touches turn host s (s'.run lane job r) :=
  ((h.update ht fun _ => by rfl).publish ht (by simp [Progress.id])).answer r true

theorem look (h : Touches turn host s s') (ht : turn = some job.number) (hh : host = some lane.host) (r : Nat) :
    Touches turn host s (s'.look lane job r) := by
  unfold Site.look
  split
  · have hc : Touches turn host s (s'.concludeCanceled lane job).1 := h.conclude ht _ rfl
    split
    · next he =>
      rw [he] at hc
      exact hc.answer r false
    · next he =>
      rw [he] at hc
      exact hc
  · unfold Site.queue
    dsimp only
    split
    · exact (h.setLock _ hh).run ht r
    · exact (h.setLock _ hh).count _ _ _ (List.Subset.refl _)

theorem request (s : Site) (lane : Lane) {n : Nat} (ht : s.state? n = some .idle → turn = some n) :
    Touches turn (some lane.host) s (s.request lane n).1 := by
  have h : Touches turn (some lane.host) s { s with requests := s.requests + 1 } :=
    refl.count _ _ _ (List.Subset.refl _)
  unfold Site.request
  dsimp only
  split
  · exact h
  · next job hj =>
    change s.job? n = some job at hj
    obtain ⟨-, rfl⟩ := Rows.mem_of_job? hj
    split
    · next hs =>
      have hturn := ht (by rw [Site.state?_eq hj, hs])
      exact (h.update hturn fun _ => by rfl).look hturn rfl _
    · exact h.answer _ false

theorem expire (s : Site) {t : Ticket} (ht : t ∈ (s.lock t.lane.host).queue → turn = some t.build) :
    Touches turn (some t.lane.host) s (s.expire t) := by
  unfold Site.expire
  dsimp only
  split
  · next hq =>
    split
    · next job hj =>
      obtain ⟨-, hnum⟩ := Rows.mem_of_job? hj
      exact (refl.setLock _ rfl).look (by rw [ht (by simpa using hq), hnum]) rfl _
    · exact refl.setLock _ rfl
  · exact refl

theorem take (s : Site) {h : String} (ht : ∀ t, (s.lock h).handed = some t → turn = some t.build) :
    Touches turn (some h) s (s.take h) := by
  unfold Site.take
  split
  · exact refl
  · next t hh =>
    dsimp only
    split
    · next job hj =>
      obtain ⟨-, hnum⟩ := Rows.mem_of_job? hj
      exact (refl.setLock _ rfl).run (by rw [ht t hh, hnum]) _
    · exact refl.setLock _ rfl

theorem giveBack (s : Site) {h : String}
    (ht : ∀ t, (s.lock h).handed = some t → turn = some t.build ∧ t.lane.host = h) :
    Touches turn (some h) s (s.giveBack h) := by
  unfold Site.giveBack
  split
  · exact refl
  · next t hh =>
    obtain ⟨hturn, hlane⟩ := ht t hh
    dsimp only
    split
    · next job hj =>
      obtain ⟨-, hnum⟩ := Rows.mem_of_job? hj
      exact (refl.setLock _ rfl).look (by rw [hturn, hnum]) (by rw [hlane]) _
    · exact refl.setLock _ rfl

theorem cancel (s : Site) (lane : Lane) {n : Nat} (ht : s.state? n = some .idle → turn = some n) :
    Touches turn host s (s.cancel lane n) := by
  have h : Touches turn host s (s.update n fun x => { x with isCanceled := true }) :=
    refl.adjust n (fun _ => by rfl) (fun _ => by rfl) (fun _ => by rfl) (fun _ => by rfl) fun _ _ => by rfl
  unfold Site.cancel
  dsimp only
  split
  · next job hj =>
    split
    · next hs =>
      obtain ⟨-, hnum⟩ := Rows.mem_of_job? hj
      have hidle : s.state? n = some .idle := by
        rw [Site.job?_update fun _ => by rfl, if_pos rfl] at hj
        obtain ⟨x, hx, rfl⟩ := Option.map_eq_some_iff.1 hj
        rw [Site.state?_eq hx]
        exact congrArg some hs
      exact h.conclude (by rw [ht hidle, hnum]) _ rfl
    · exact h
  · exact h

theorem finish (s : Site) (lane : Lane) (n : Nat) (succeeded : Bool) :
    Touches (some n) ((s.job? n).bind Job.holds) s (s.finish lane n succeeded).1 := by
  unfold Site.finish
  split
  · exact refl
  · next job hj =>
    obtain ⟨-, rfl⟩ := Rows.mem_of_job? hj
    refine conclude ?_ rfl _ rfl
    unfold Site.releaseLock
    split
    · next host hh => exact (refl.update rfl fun _ => by rfl).setLock _ (by rw [hj]; exact hh)
    · exact refl

end Touches

/-- A move touches the build whose turn it is and one host, but for a new build. -/
theorem Move.touches {s : Site} (m : Move) (hm : ∀ project task isTest parent, m ≠ .create project task isTest parent)
    (hp : ∀ host t, (s.lock host).handed = some t → t.lane.host = host) :
    Touches (m.turn? s) (m.host? s) s (s.after m) := by
  cases m with
  | create project task isTest parent => exact absurd rfl (hm _ _ _ _)
  | start lane n => exact .request s lane fun hs => if_pos hs
  | expire t => exact .expire s fun hq => if_pos hq
  | take host => exact .take s fun t hh => by rw [turn?, hh]; rfl
  | giveBack host => exact .giveBack s fun t hh => ⟨by rw [turn?, hh]; rfl, hp host t hh⟩
  | cancel lane n => exact .cancel s lane fun hs => if_pos hs
  | finish lane n succeeded => exact .finish s lane n succeeded
  | progress lane n message => exact Touches.refl.notify fun _ _ => by simp [Notice.mark?, Progress.isMark]
  | cancelToken token => exact Touches.refl.count _ _ _ (List.subset_cons_self _ _)
  | addErrors n k | addWarnings n k | store n artifacts | awaitResult n | serveReaders n =>
    exact Touches.refl.adjust n (fun _ => by rfl) (fun _ => by rfl) (fun _ => by rfl) (fun _ => by rfl) fun _ h => h
  | wait ms => exact Touches.refl.count _ _ _ (List.Subset.refl _)

def Move.TakesFor (s : Site) (b : Nat) : Move → Prop
  | .take host => ∃ t, (s.lock host).handed = some t ∧ t.build = b
  | _ => False

/-- A waiting build is out of line and looks. -/
inductive Looks (l : Ledger) (b : Nat) : Ledger → Prop where
  | mk {s : Site} {lane : Lane} {job : Job} {r : Nat} (order : Orderly { l with site := s } (some b) none)
      (keeps : Keeps b l.site s) (here : s.job? b = some job) (waits : job.state = .waiting)
      (asked : (b, r) ∈ l.starts) : Looks l b { l with site := s.look lane job r }

namespace Orderly

variable {l : Ledger} {m : Move} {b : Nat}

theorem touches (o : Orderly l none none) (hm : ∀ project task isTest parent, m ≠ .create project task isTest parent) :
    Touches (m.turn? l.site) (m.host? l.site) l.site (l.after m).site :=
  m.touches hm fun host _ hh => (o.lined.placed host _ (mem_tickets_of_handed hh)).1

/-- A move is seen of no build but the one whose turn it is. -/
theorem keeps (o : Orderly l none none) (hb : l.site.state? b ≠ none) (hm : m.turn? l.site ≠ some b) :
    Keeps b l.site (l.after m).site := by
  cases m with
  | create project task isTest parent => exact .create o.rows hb project task isTest parent
  | _ => exact (o.touches fun _ _ _ _ h => by cases h).keeps hm

theorem lock_after (o : Orderly l none none) {host : String} (hm : m.host? l.site ≠ some host) :
    (l.after m).site.lock host = l.site.lock host := by
  cases m with
  | create project task isTest parent => rfl
  | _ => exact (o.touches fun _ _ _ _ h => by cases h).lock hm

theorem notices_after (o : Orderly l none none) (m : Move) : l.site.notices <+: (l.after m).site.notices := by
  cases m with
  | create project task isTest parent => exact List.prefix_refl _
  | _ => exact (o.touches fun _ _ _ _ h => by cases h).notices

theorem returned_after (o : Orderly l none none) {started : Bool} (h : l.Returned b started) (m : Move) :
    (l.after m).Returned b started := by
  obtain ⟨r, hr, ha⟩ := h
  refine ⟨r, ?_, (o.notices_after m).subset ha⟩
  cases m with
  | start lane n => exact l.subset_noteStart n hr
  | _ => exact hr

/-- The turn of an idle build is its start or its cancellation, that of a waiting one is that it takes the lock that was
handed to it or looks, and that of a running one is its end. -/
theorem turn_cases (o : Orderly l none none) (hm : l.Allows m) (ht : m.turn? l.site = some b) :
    l.site.state? b = some .idle ∧ (∃ lane, m = .start lane b ∨ m = .cancel lane b) ∨
      l.site.state? b = some .waiting ∧ (m.TakesFor l.site b ∨ Looks l b (l.after m)) ∨
      l.site.state? b = some .running ∧ ∃ lane succeeded, m = .finish lane b succeeded := by
  cases m with
  | start lane n =>
    simp only [Move.turn?, Option.ite_none_right_eq_some, Option.some.injEq] at ht
    obtain ⟨hidle, rfl⟩ := ht
    exact .inl ⟨hidle, lane, .inl rfl⟩
  | cancel lane n =>
    simp only [Move.turn?, Option.ite_none_right_eq_some, Option.some.injEq] at ht
    obtain ⟨hidle, rfl⟩ := ht
    exact .inl ⟨hidle, lane, .inr rfl⟩
  | take host =>
    obtain ⟨t, hh, rfl⟩ := Option.map_eq_some_iff.1 ht
    obtain ⟨-, -, job, hj, hs⟩ := o.seated (mem_tickets_of_handed hh)
    exact .inr (.inl ⟨by simp [Site.state?, hj, hs], .inl ⟨t, hh, rfl⟩⟩)
  | expire t =>
    simp only [Move.turn?, Option.ite_none_right_eq_some, Option.some.injEq] at ht
    obtain ⟨hq, rfl⟩ := ht
    obtain ⟨-, hr, job, hj, hs⟩ := o.seated (List.mem_append_right _ hq)
    simp only [Ledger.after, Site.after, Site.expire_eq hq hj]
    exact .inr (.inl ⟨by simp [Site.state?, hj, hs], .inr ⟨o.leave_queue hq, .setLock _ _ _, hj, hs, hr⟩⟩)
  | giveBack host =>
    obtain ⟨t, hh, rfl⟩ := Option.map_eq_some_iff.1 ht
    obtain ⟨-, hr, job, hj, hs⟩ := o.seated (mem_tickets_of_handed hh)
    simp only [Ledger.after, Site.after, Site.giveBack_eq hh hj]
    exact .inr (.inl ⟨by simp [Site.state?, hj, hs], .inr ⟨o.leave_given hh, .setLock _ _ _, hj, hs, hr⟩⟩)
  | finish lane n succeeded =>
    obtain ⟨⟨r, hr, hyes⟩, hopen⟩ := hm
    obtain rfl : n = b := Option.some_inj.1 ht
    exact .inr (.inr ⟨(o.answers.yes n r hr hyes).resolve_right hopen, lane, succeeded, rfl⟩)
  | _ => cases ht

theorem keeps_of_isFinal (o : Orderly l none none) (hm : l.Allows m) {st : State} (hs : l.site.state? b = some st)
    (hf : st.isFinal = true) : Keeps b l.site (l.after m).site := by
  refine o.keeps (by simp [hs]) fun ht => ?_
  rcases o.turn_cases hm ht with ⟨h, -⟩ | ⟨h, -⟩ | ⟨h, -⟩ <;> rw [hs] at h <;> cases h <;> cases hf

end Orderly

end CrateYard.Build
