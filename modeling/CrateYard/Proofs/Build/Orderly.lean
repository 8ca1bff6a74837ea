import CrateYard.Proofs.Build.Course
import Mathlib.Data.List.Nodup

/-! What holds between any two moves. `turn` is a build that has left the line to take its turn and `hand` the host
whose permit it has in hand; at rest there is neither. Each part of the invariant reads a site only through its
views, so a move is described by what it does to them. -/

namespace CrateYard.Build

/-- A build holds a lock as long as it runs, and has a result, written once, when it has come to its end. -/
structure Job.Sound (job : Job) : Prop where
  running_iff : job.state = .running ↔ job.holds.isSome = true
  final_iff : job.outcome.cell.value.isSome = true ↔ job.state.isFinal = true
  version : job.outcome.cell.version = if job.state.isFinal then 1 else 0

structure Rows (s : Site) : Prop where
  numbers : s.jobs.map Job.number = List.range' 1 s.jobs.length
  sound : ∀ job ∈ s.jobs, job.Sound

/-- A host has one permit: it is free, on its way to a waiter, held by a build, or in the hand of the one whose turn
it is. -/
def Balanced (s : Site) (hand : Option String) : Prop :=
  ∀ host, (s.lock host).free + (s.lock host).onItsWay + s.holders host + (if hand = some host then 1 else 0) = 1

/-- The builds that wait are those with a ticket, but for the one whose turn it is, and each has one. -/
structure Lined (s : Site) (turn : Option Nat) : Prop where
  seated_iff : ∀ b, (∃ host, ∃ t ∈ (s.lock host).tickets, t.build = b) ↔
    s.state? b = some .waiting ∧ turn ≠ some b
  placed : ∀ host, ∀ t ∈ (s.lock host).tickets, t.lane.host = host ∧ t.number < s.tickets
  apart : ∀ host host' t t', t ∈ (s.lock host).tickets → t' ∈ (s.lock host').tickets →
    t.build = t'.build ∨ t.number = t'.number → t = t'
  nodup : ∀ host, (s.lock host).tickets.Nodup

/-- What was asked and what was answered agree with where the builds are. -/
structure Answers (l : Ledger) : Prop where
  asked : ∀ b r, (b, r) ∈ l.starts → r < l.site.requests ∧ ∃ st, l.site.state? b = some st ∧ st ≠ .idle
  alone : ∀ b r b' r', (b, r) ∈ l.starts → (b', r') ∈ l.starts → b = b' ∨ r = r' → b = b' ∧ r = r'
  carried : ∀ host, ∀ t ∈ (l.site.lock host).tickets, (t.build, t.request) ∈ l.starts
  fresh : ∀ r ok, .answered r ok ∈ l.site.notices → r < l.site.requests
  yes : ∀ b r, (b, r) ∈ l.starts → .answered r true ∈ l.site.notices →
    l.site.state? b = some .running ∨ b ∈ l.ends
  no : ∀ b r, (b, r) ∈ l.starts → .answered r false ∈ l.site.notices → l.site.IsRefused b
  ended : ∀ b ∈ l.ends, ∃ st, l.site.state? b = some st ∧ st.isFinal = true
  unasked : ∀ b st, l.site.state? b = some st → (∀ r, (b, r) ∉ l.starts) → st = .idle ∨ l.site.IsRefused b
  unrefused : ∀ e, .refused e ∉ l.site.notices

structure Orderly (l : Ledger) (turn : Option Nat) (hand : Option String) : Prop where
  rows : Rows l.site
  balanced : Balanced l.site hand
  lined : Lined l.site turn
  answers : Answers l

theorem Balanced.at_rest {s : Site} (h : Balanced s none) (host : String) :
    (s.lock host).free + (s.lock host).onItsWay + s.holders host = 1 := by
  have hone := h host
  rwa [if_neg (by simp)] at hone

namespace Rows

variable {s : Site}

theorem nodup (h : Rows s) : (s.jobs.map Job.number).Nodup := by
  rw [h.numbers]
  exact List.nodup_range'

theorem job?_of_mem (h : Rows s) {job : Job} (hj : job ∈ s.jobs) : s.job? job.number = some job := by
  unfold Site.job?
  cases hf : s.jobs.find? fun x => decide (x.number = job.number) with
  | none => exact absurd (List.find?_eq_none.1 hf job hj) (by simp)
  | some x =>
    have hx : x.number = job.number := by simpa using List.find?_some hf
    rw [List.inj_on_of_nodup_map h.nodup (List.mem_of_find?_eq_some hf) hj hx]

theorem mem_of_job? {b : Nat} {job : Job} (hj : s.job? b = some job) : job ∈ s.jobs ∧ job.number = b :=
  ⟨List.mem_of_find?_eq_some hj, by simpa using List.find?_some hj⟩

theorem holders_update (h : Rows s) (f : Job → Job) {b : Nat} {job : Job} (hj : s.job? b = some job) (host : String) :
    (s.update b f).holders host + (if job.holds = some host then 1 else 0) =
      s.holders host + (if (f job).holds = some host then 1 else 0) := by
  have := Site.countP_map_update (fun x => x.holds = some host) f b h.nodup hj
  simpa [Site.holders, Site.update] using this

theorem update (h : Rows s) {f : Job → Job} (hf : ∀ x, (f x).number = x.number) {b : Nat}
    (hs : ∀ job, s.job? b = some job → (f job).Sound) : Rows (s.update b f) := by
  refine ⟨?_, fun job hj => ?_⟩
  · rw [Site.numbers_update hf, h.numbers]
    simp [Site.update]
  · obtain ⟨x, hx, rfl⟩ := List.mem_map.1 hj
    by_cases hb : x.number = b
    · rw [if_pos hb]
      exact hs x (hb ▸ h.job?_of_mem hx)
    · rw [if_neg hb]
      exact h.sound x hx

end Rows

namespace Lined

variable {s s' : Site} {turn turn' : Option Nat}

theorem same (h : Lined s turn) (ht : ∀ host, (s'.lock host).tickets = (s.lock host).tickets)
    (hn : s'.tickets = s.tickets)
    (hw : ∀ b, (s'.state? b = some .waiting ∧ turn' ≠ some b) ↔ (s.state? b = some .waiting ∧ turn ≠ some b)) :
    Lined s' turn' := by
  refine ⟨fun b => ?_, fun host t hm => ?_, fun host host' t t' hm hm' => ?_, fun host => ?_⟩
  · simp only [ht, hw]
    exact h.seated_iff b
  · rw [ht] at hm
    rw [hn]
    exact h.placed host t hm
  · rw [ht] at hm hm'
    exact h.apart host host' t t' hm hm'
  · rw [ht]
    exact h.nodup host

/-- A ticket leaves the line, and its build has its turn. -/
theorem leave (h : Lined s none) {host : String} {t : Ticket} (ht : t ∈ (s.lock host).tickets)
    (hm : ∀ host' t', t' ∈ (s'.lock host').tickets ↔ t' ∈ (s.lock host').tickets ∧ t' ≠ t)
    (hd : ∀ host', (s'.lock host').tickets.Nodup) (hn : s'.tickets = s.tickets)
    (hs : ∀ b, s'.state? b = s.state? b) : Lined s' (some t.build) := by
  refine ⟨fun b => ?_, fun host' t' hm' => ?_, fun host₁ host₂ t₁ t₂ h₁ h₂ => ?_, hd⟩
  · simp only [hm, hs]
    constructor
    · rintro ⟨host', t', ⟨hm', hne⟩, rfl⟩
      refine ⟨((h.seated_iff _).1 ⟨host', t', hm', rfl⟩).1, fun he => hne ?_⟩
      exact h.apart _ _ _ _ hm' ht (.inl (Option.some_inj.1 he).symm)
    · rintro ⟨hw, hne⟩
      obtain ⟨host', t', hm', rfl⟩ := (h.seated_iff b).2 ⟨hw, by simp⟩
      exact ⟨host', t', ⟨hm', fun he => hne (by rw [he])⟩, rfl⟩
  · rw [hn]
    exact h.placed _ _ ((hm _ _).1 hm').1
  · exact h.apart _ _ _ _ ((hm _ _).1 h₁).1 ((hm _ _).1 h₂).1

/-- The build whose turn it is joins the line with a new ticket. -/
theorem join {t : Ticket} (h : Lined s (some t.build)) (hw : s.state? t.build = some .waiting)
    (ht : t.number = s.tickets) (hl : ∀ host, (s'.lock host).tickets =
      if host = t.lane.host then (s.lock host).tickets ++ [t] else (s.lock host).tickets)
    (hn : s'.tickets = s.tickets + 1) (hs : ∀ b, s'.state? b = s.state? b) : Lined s' none := by
  have hm : ∀ host t', t' ∈ (s'.lock host).tickets ↔
      t' ∈ (s.lock host).tickets ∨ (host = t.lane.host ∧ t' = t) := by
    intro host t'
    rw [hl]
    split
    · next he => simp [he]
    · next he => simp [he]
  -- no ticket in line is of this build or has this number
  have hfresh : ∀ host t', t' ∈ (s.lock host).tickets → t'.build ≠ t.build ∧ t'.number < t.number := by
    intro host t' hm'
    refine ⟨fun he => ((h.seated_iff t'.build).1 ⟨host, t', hm', rfl⟩).2 (by rw [he]), ?_⟩
    rw [ht]
    exact (h.placed host t' hm').2
  refine ⟨fun b => ?_, fun host t' hm' => ?_, fun host₁ host₂ t₁ t₂ h₁ h₂ he => ?_, fun host => ?_⟩
  · simp only [hm, hs]
    constructor
    · rintro ⟨host, t', hm' | ⟨-, rfl⟩, rfl⟩
      · exact ⟨((h.seated_iff _).1 ⟨host, t', hm', rfl⟩).1, by simp⟩
      · exact ⟨hw, by simp⟩
    · rintro ⟨hb, -⟩
      by_cases hbt : b = t.build
      · exact ⟨t.lane.host, t, .inr ⟨rfl, rfl⟩, hbt.symm⟩
      · obtain ⟨host, t', hm', hb'⟩ := (h.seated_iff b).2 ⟨hb, fun hc => hbt (Option.some_inj.1 hc).symm⟩
        exact ⟨host, t', .inl hm', hb'⟩
  · rw [hn]
    rcases (hm host t').1 hm' with hm' | ⟨rfl, rfl⟩
    · exact ⟨(h.placed host t' hm').1, Nat.lt_succ_of_lt (h.placed host t' hm').2⟩
    · exact ⟨rfl, by omega⟩
  · rcases (hm host₁ t₁).1 h₁ with h₁ | ⟨-, rfl⟩ <;> rcases (hm host₂ t₂).1 h₂ with h₂ | ⟨-, rfl⟩
    · exact h.apart _ _ _ _ h₁ h₂ he
    · have := hfresh _ _ h₁
      rcases he with he | he
      · exact absurd he this.1
      · omega
    · have := hfresh _ _ h₂
      rcases he with he | he
      · exact absurd he.symm this.1
      · omega
    · rfl
  · rw [hl]
    split
    · refine (h.nodup host).append (List.nodup_singleton t) fun t' hm' he => ?_
      rw [List.mem_singleton] at he
      exact (hfresh host t' hm').1 (by rw [he])
    · exact h.nodup host

end Lined

namespace Answers

variable {l l' : Ledger} {b : Nat} {st : State}

theorem same (h : Answers l) (hs : ∀ b, l'.site.state? b = l.site.state? b)
    (hr : ∀ b, l'.site.result? b = l.site.result? b)
    (ht : ∀ host, (l'.site.lock host).tickets ⊆ (l.site.lock host).tickets) (hq : l.site.requests ≤ l'.site.requests)
    (hn : ∀ r ok, .answered r ok ∈ l'.site.notices → .answered r ok ∈ l.site.notices)
    (hu : ∀ e, .refused e ∈ l'.site.notices → .refused e ∈ l.site.notices)
    (hst : l'.starts = l.starts) (he : l'.ends = l.ends) : Answers l' := by
  have href : ∀ b, l'.site.IsRefused b ↔ l.site.IsRefused b := fun b => by
    simp only [Site.IsRefused, hs, hr]
  constructor
  case asked =>
    simp only [hs, hst]
    exact fun b r hb => (h.asked b r hb).imp_left (Nat.lt_of_lt_of_le · hq)
  case alone =>
    simp only [hst]
    exact h.alone
  case carried =>
    intro host t hm
    rw [hst]
    exact h.carried host t (ht host hm)
  case fresh =>
    exact fun r ok hm => Nat.lt_of_lt_of_le (h.fresh r ok (hn r ok hm)) hq
  case yes =>
    intro b r hb hm
    rw [hs, he]
    exact h.yes b r (hst ▸ hb) (hn r true hm)
  case no =>
    intro b r hb hm
    rw [href]
    exact h.no b r (hst ▸ hb) (hn r false hm)
  case ended =>
    simp only [hs, he]
    exact h.ended
  case unasked =>
    simp only [hs, hst, href]
    exact h.unasked
  case unrefused => exact fun e hm => h.unrefused e (hu e hm)

theorem notMem_ends (h : Answers l) (hb : l.site.state? b = some st) (hst : st.isFinal = false) : b ∉ l.ends := by
  intro hm
  obtain ⟨x, hx, hf⟩ := h.ended b hm
  rw [hb] at hx
  obtain rfl := Option.some_inj.1 hx
  simp [hst] at hf

theorem unasked_of_idle (h : Answers l) (hb : l.site.state? b = some .idle) (r : Nat) : (b, r) ∉ l.starts := by
  intro hr
  obtain ⟨-, st, hst, hidle⟩ := h.asked b r hr
  exact hidle (Option.some_inj.1 (hst.symm.trans hb))

/-- One build goes on, and only it may be noted as finished, when it has come to its end. -/
theorem ended_advance (h : Answers l) {st' : State} (hb : l.site.state? b = some st) (hst : st.isFinal = false)
    (hb' : l'.site.state? b = some st') (hs : ∀ n, n ≠ b → l'.site.state? n = l.site.state? n)
    (hends : l'.ends = l.ends ∨ l'.ends = b :: l.ends ∧ st'.isFinal = true) {n : Nat} (hn : n ∈ l'.ends) :
    ∃ x, l'.site.state? n = some x ∧ x.isFinal = true := by
  have hkept : ∀ n ∈ l.ends, ∃ x, l'.site.state? n = some x ∧ x.isFinal = true := fun n hm => by
    rw [hs n fun he => h.notMem_ends hb hst (he ▸ hm)]
    exact h.ended n hm
  rcases hends with he | ⟨he, hf⟩
  · exact hkept n (he ▸ hn)
  · rcases List.mem_cons.1 (he ▸ hn) with rfl | hm
    · exact ⟨st', hb', hf⟩
    · exact hkept n hm

/-- A build that has not come to its end goes on: `b` leaves the state `st` for `st'`. Nothing is answered, and only
`b` is noted as finished. -/
theorem advance (h : Answers l) {st' : State} (hb : l.site.state? b = some st)
    (hst : st.isFinal = false) (hb' : l'.site.state? b = some st') (hst' : st' ≠ .idle)
    (hs : ∀ n, n ≠ b → l'.site.state? n = l.site.state? n ∧ l'.site.result? n = l.site.result? n)
    (ht : ∀ host, (l'.site.lock host).tickets = (l.site.lock host).tickets) (hq : l'.site.requests = l.site.requests)
    (hn : l'.site.notices = l.site.notices) (hstarts : l'.starts = l.starts)
    (hends : l'.ends = l.ends ∧ st ≠ .running ∨ l'.ends = b :: l.ends ∧ st'.isFinal = true)
    (hasked : (∃ r, (b, r) ∈ l.starts) ∨ l'.site.IsRefused b) : Answers l' := by
  have href : ∀ n, l.site.IsRefused n → l'.site.IsRefused n := fun n hr => by
    have hne : n ≠ b := by
      rintro rfl
      obtain rfl := Option.some_inj.1 (hb.symm.trans hr.1)
      cases hst
    unfold Site.IsRefused
    rw [(hs n hne).1, (hs n hne).2]
    exact hr
  constructor
  case asked =>
    intro n r hm
    rw [hstarts] at hm
    rw [hq]
    refine ⟨(h.asked n r hm).1, ?_⟩
    by_cases hne : n = b
    · exact ⟨st', hne ▸ hb', hst'⟩
    · rw [(hs n hne).1]
      exact (h.asked n r hm).2
  case alone =>
    rw [hstarts]
    exact h.alone
  case carried =>
    intro host t hm
    rw [hstarts]
    exact h.carried host t (ht host ▸ hm)
  case fresh =>
    intro r ok hm
    rw [hq]
    exact h.fresh r ok (hn ▸ hm)
  case yes =>
    intro n r hm ha
    rw [hstarts] at hm
    rw [hn] at ha
    by_cases hne : n = b
    · subst hne
      -- it runs, for it was not finished before; so this is its end
      have hrun := (h.yes n r hm ha).resolve_right (h.notMem_ends hb hst)
      obtain ⟨-, hother⟩ | ⟨he, -⟩ := hends
      · exact absurd (Option.some_inj.1 (hb.symm.trans hrun)) hother
      · exact .inr (he ▸ List.mem_cons_self)
    · rw [(hs n hne).1]
      refine (h.yes n r hm ha).imp_right fun hm => ?_
      obtain ⟨he, -⟩ | ⟨he, -⟩ := hends
      · exact he ▸ hm
      · exact he ▸ List.mem_cons_of_mem _ hm
  case no =>
    intro n r hm ha
    rw [hstarts] at hm
    rw [hn] at ha
    exact href n (h.no n r hm ha)
  case ended =>
    exact fun n hm => h.ended_advance hb hst hb' (fun n hne => (hs n hne).1) (hends.imp_left And.left) hm
  case unasked =>
    intro n x hx hm
    rw [hstarts] at hm
    by_cases hne : n = b
    · subst hne
      exact .inr (hasked.resolve_left fun ⟨r, hr⟩ => hm r hr)
    · rw [(hs n hne).1] at hx
      exact (h.unasked n x hx hm).imp_right (href n)
  case unrefused => exact fun e hm => h.unrefused e (hn ▸ hm)

/-- A build is to start for the first time. -/
theorem ask (h : Answers l) {st' : State} (hb : l.site.state? b = some st)
    (hnew : ∀ r, (b, r) ∉ l.starts) (hb' : l'.site.state? b = some st') (hst' : st' ≠ .idle)
    (hkeep : st = .idle ∨ st' = st) (hs : ∀ n, n ≠ b → l'.site.state? n = l.site.state? n)
    (hr : ∀ n, l'.site.result? n = l.site.result? n)
    (ht : ∀ host, (l'.site.lock host).tickets = (l.site.lock host).tickets)
    (hq : l'.site.requests = l.site.requests + 1) (hn : l'.site.notices = l.site.notices)
    (hstarts : l'.starts = (b, l.site.requests) :: l.starts) (hends : l'.ends = l.ends) : Answers l' := by
  have hm : ∀ n r, (n, r) ∈ l'.starts ↔ (n = b ∧ r = l.site.requests) ∨ (n, r) ∈ l.starts := fun n r => by
    rw [hstarts, List.mem_cons, Prod.mk.injEq]
  have hstate : ∀ n x, x ≠ .idle → l.site.state? n = some x → l'.site.state? n = some x := fun n x hx hn => by
    by_cases hne : n = b
    · subst hne
      rw [hb] at hn
      obtain rfl := Option.some_inj.1 hn
      rw [hb', hkeep.resolve_left hx]
    · rw [hs n hne, hn]
  have href : ∀ n, l.site.IsRefused n → l'.site.IsRefused n := fun n hc =>
    ⟨hstate n _ (by simp) hc.1, by rw [hr]; exact hc.2⟩
  -- the request is new, so nothing was answered to it
  have hold : ∀ {n r ok}, (n, r) ∈ l'.starts → .answered r ok ∈ l.site.notices → (n, r) ∈ l.starts := by
    intro n r ok hc ha
    refine ((hm n r).1 hc).resolve_left fun ⟨_, he⟩ => ?_
    exact absurd (h.fresh _ _ ha) (by omega)
  constructor
  case asked =>
    intro n r hc
    rw [hq]
    rcases (hm n r).1 hc with ⟨rfl, rfl⟩ | hc
    · exact ⟨Nat.lt_succ_self _, st', hb', hst'⟩
    · obtain ⟨hlt, x, hx, hne⟩ := h.asked n r hc
      exact ⟨Nat.lt_succ_of_lt hlt, x, hstate n x hne hx, hne⟩
  case alone =>
    intro n r n' r' hc hc' he
    rcases (hm n r).1 hc with ⟨rfl, rfl⟩ | hc <;> rcases (hm n' r').1 hc' with ⟨rfl, rfl⟩ | hc'
    · exact ⟨rfl, rfl⟩
    · rcases he with rfl | rfl
      · exact absurd hc' (hnew _)
      · exact absurd (h.asked n' _ hc').1 (Nat.lt_irrefl _)
    · rcases he with rfl | rfl
      · exact absurd hc (hnew _)
      · exact absurd (h.asked n _ hc).1 (Nat.lt_irrefl _)
    · exact h.alone n r n' r' hc hc' he
  case carried =>
    intro host t hc
    rw [ht] at hc
    exact (hm _ _).2 (.inr (h.carried host t hc))
  case fresh =>
    intro r ok hc
    rw [hq]
    exact Nat.lt_succ_of_lt (h.fresh r ok (hn ▸ hc))
  case yes =>
    intro n r hc ha
    rw [hn] at ha
    rw [hends]
    exact (h.yes n r (hold hc ha) ha).imp_left (hstate n _ (by simp))
  case no =>
    intro n r hc ha
    rw [hn] at ha
    exact href n (h.no n r (hold hc ha) ha)
  case ended =>
    intro n hc
    obtain ⟨x, hx, hf⟩ := h.ended n (hends ▸ hc)
    exact ⟨x, hstate n x (fun he => by simp [he, State.isFinal] at hf) hx, hf⟩
  case unasked =>
    intro n x hx hc
    by_cases hne : n = b
    · exact absurd ((hm n _).2 (.inl ⟨hne, rfl⟩)) (hc _)
    · rw [hs n hne] at hx
      exact (h.unasked n x hx fun r hr => hc r ((hm n r).2 (.inr hr))).imp_right (href n)
  case unrefused => exact fun e hc => h.unrefused e (hn ▸ hc)

/-- There may be more builds, and they are idle. -/
theorem grow (h : Answers l) {s : Site}
    (hkeep : ∀ n x, l.site.state? n = some x → s.state? n = some x ∧ s.result? n = l.site.result? n)
    (hmore : ∀ n x, s.state? n = some x → l.site.state? n = some x ∨ x = .idle)
    (hl : ∀ host, s.lock host = l.site.lock host) (hq : s.requests = l.site.requests)
    (hn : s.notices = l.site.notices) : Answers { l with site := s } := by
  have href : ∀ n, l.site.IsRefused n → s.IsRefused n := fun n hr =>
    ⟨(hkeep n _ hr.1).1, by rw [(hkeep n _ hr.1).2]; exact hr.2⟩
  constructor
  case asked =>
    intro n r hm
    obtain ⟨hlt, x, hx, hne⟩ := h.asked n r hm
    exact ⟨hq ▸ hlt, x, (hkeep n x hx).1, hne⟩
  case alone => exact h.alone
  case carried =>
    intro host t ht
    rw [hl] at ht
    exact h.carried host t ht
  case fresh => exact fun r ok hm => hq ▸ h.fresh r ok (hn ▸ hm)
  case yes => exact fun n r hm ha => (h.yes n r hm (hn ▸ ha)).imp_left fun hx => (hkeep n _ hx).1
  case no => exact fun n r hm ha => href n (h.no n r hm (hn ▸ ha))
  case ended =>
    intro n hm
    obtain ⟨x, hx, hf⟩ := h.ended n hm
    exact ⟨x, (hkeep n x hx).1, hf⟩
  case unasked =>
    intro n x hx hm
    rcases hmore n x hx with hx | hx
    · exact (h.unasked n x hx hm).imp_right (href n)
    · exact .inl hx
  case unrefused => exact fun e hm => h.unrefused e (hn ▸ hm)

/-- A request is answered; if it is the first of a build, the answer agrees with where the build is. -/
theorem tell (h : Answers l) {r : Nat} {ok : Bool} (hr : r < l.site.requests)
    (hyes : ∀ b, (b, r) ∈ l.starts → ok = true → l.site.state? b = some .running)
    (hno : ∀ b, (b, r) ∈ l.starts → ok = false → l.site.IsRefused b) :
    Answers { l with site := l.site.notify [.answered r ok] } := by
  have hn : ∀ n : Notice, n ∈ (l.site.notify [.answered r ok]).notices →
      n ∈ l.site.notices ∨ n = .answered r ok := fun n hm => by simpa [Site.notify] using hm
  constructor
  case asked => exact h.asked
  case alone => exact h.alone
  case carried => exact h.carried
  case ended => exact h.ended
  case unasked => exact h.unasked
  case fresh =>
    intro q ok' hm
    rcases hn _ hm with hm | hm
    · exact h.fresh q ok' hm
    · obtain ⟨rfl, -⟩ := Notice.answered.inj hm
      exact hr
  case yes =>
    intro n q hq hm
    rcases hn _ hm with hm | hm
    · exact h.yes n q hq hm
    · obtain ⟨rfl, rfl⟩ := Notice.answered.inj hm
      exact .inl (hyes n hq rfl)
  case no =>
    intro n q hq hm
    rcases hn _ hm with hm | hm
    · exact h.no n q hq hm
    · obtain ⟨rfl, rfl⟩ := Notice.answered.inj hm
      exact hno n hq rfl
  case unrefused =>
    intro e hm
    rcases hn _ hm with hm | hm
    · exact h.unrefused e hm
    · cases hm

end Answers

theorem Job.Sound.ended {job : Job} (h : job.Sound) (hl : job.state.isFinal = false) {v : Verdict}
    (hv : v.state.isFinal = true) (result : Result) {x : Job} (hx : x.holds = none) :
    (x.ended v (job.outcome.written result)).Sound := by
  have hversion := h.version
  rw [hl] at hversion
  refine ⟨?_, ?_, ?_⟩
  · have : v.state ≠ .running := fun he => by simp [he, State.isFinal] at hv
    simp [Job.ended, hx, this]
  · simp [Job.ended, Readership.written, hv]
  · simp [Job.ended, Readership.written, hv, hversion]

theorem Job.Sound.waits {job : Job} (h : job.Sound) (hs : job.state = .idle) :
    ({ job with state := .waiting } : Job).Sound := by
  obtain ⟨hrun, hfinal, hversion⟩ := h
  rw [hs] at hrun hfinal hversion
  exact ⟨by simpa using hrun, by simpa [State.isFinal] using hfinal, by simpa [State.isFinal] using hversion⟩

theorem Job.Sound.runs {job : Job} (h : job.Sound) (hs : job.state = .waiting) (host : String) :
    ({ job with state := .running, holds := some host } : Job).Sound := by
  obtain ⟨-, hfinal, hversion⟩ := h
  rw [hs] at hfinal hversion
  exact ⟨by simp, by simpa [State.isFinal] using hfinal, by simpa [State.isFinal] using hversion⟩

theorem Job.Sound.value_eq_none {job : Job} (h : job.Sound) (hl : job.state.isFinal = false) :
    job.outcome.cell.value = none := by
  have := h.final_iff
  rw [hl] at this
  simpa using this

theorem Job.Sound.holds_eq_none {job : Job} (h : job.Sound) (hl : job.state ≠ .running) : job.holds = none := by
  have := h.running_iff
  simpa [hl] using this

end CrateYard.Build
