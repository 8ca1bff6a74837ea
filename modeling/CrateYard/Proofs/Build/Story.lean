import CrateYard.Proofs.Build.Turn

/-! What is announced of a build, its texts among it. Only a report brings a text, and only a report stores
artifacts; every other move leaves both as they are, so what it tells of a build is read off its marks. -/

namespace CrateYard.Build

open Output (Artifact)

def Notice.event? (b : Nat) : Notice → Option Progress
  | .published _ e => if e.id = idText b then some e else none
  | _ => none

def Notice.isText : Notice → Bool
  | .published _ e => !e.isMark
  | _ => false

namespace Site

/-- All that was announced of a build, in order and on whatever lane. -/
def story (s : Site) (b : Nat) : List Progress :=
  s.notices.filterMap (Notice.event? b)

def texts (s : Site) : List Notice :=
  s.notices.filter Notice.isText

def artifacts? (s : Site) (b : Nat) : Option (List Artifact) :=
  (s.job? b).map Job.artifacts

theorem story_notify (s : Site) (notices : List Notice) (b : Nat) :
    (s.notify notices).story b = s.story b ++ notices.filterMap (Notice.event? b) := by
  simp [story, notify]

theorem story_progress (s : Site) (lane : Lane) (n b : Nat) (text : String) :
    (s.progress lane n text).story b = s.story b ++ if n = b then [.progress (idText b) text] else [] := by
  rw [progress, publish, story_notify]
  by_cases h : n = b
  · subst h
    simp [Notice.event?, Progress.id]
  · have hid : idText n ≠ idText b := fun he => h (idText_inj.1 he)
    simp [Notice.event?, Progress.id, hid, h]

end Site

/-- Where there is no text among some notices, what they tell of a build are its marks. -/
theorem filterMap_event? {notices : List Notice} (h : notices.filter Notice.isText = []) (b : Nat) :
    notices.filterMap (Notice.event? b) = notices.filterMap (Notice.mark? b) := by
  apply List.filterMap_congr
  intro n hn
  have htext : n.isText = false := by simpa using List.filter_eq_nil_iff.1 h n hn
  cases n with
  | published lane e =>
    have hmark : e.isMark = true := by simpa [Notice.isText] using htext
    simp [Notice.event?, Notice.mark?, hmark]
  | _ => rfl

/-- No text is announced and no artifact is stored. -/
structure Tacit (s s' : Site) : Prop where
  texts : s'.texts = s.texts
  artifacts : ∀ b, s'.artifacts? b = s.artifacts? b

namespace Tacit

variable {s s' s'' : Site} {lane : Lane} {job : Job}

theorem refl (s : Site) : Tacit s s := ⟨rfl, fun _ => rfl⟩

theorem trans (h : Tacit s s') (h' : Tacit s' s'') : Tacit s s'' :=
  ⟨h'.texts.trans h.texts, fun b => (h'.artifacts b).trans (h.artifacts b)⟩

theorem same (hn : s'.notices = s.notices) (hj : s'.jobs = s.jobs) : Tacit s s' := by
  refine ⟨by rw [Site.texts, hn, Site.texts], fun b => ?_⟩
  rw [Site.artifacts?, Site.job?, hj]
  rfl

theorem update (s : Site) (n : Nat) {f : Job → Job} (hf : ∀ x, (f x).number = x.number)
    (ha : ∀ x, (f x).artifacts = x.artifacts) : Tacit s (s.update n f) := by
  refine ⟨rfl, fun b => ?_⟩
  rw [Site.artifacts?, Site.job?_update hf]
  split
  · next h =>
    subst h
    rw [Site.artifacts?]
    cases s.job? b <;> simp [ha]
  · rfl

theorem setLock (s : Site) (host : String) (l : Lock) : Tacit s (s.setLock host l) :=
  same rfl rfl

theorem notify (s : Site) {notices : List Notice} (h : notices.filter Notice.isText = []) :
    Tacit s (s.notify notices) := by
  refine ⟨?_, fun _ => rfl⟩
  rw [Site.texts, Site.notify, List.filter_append, h, List.append_nil, Site.texts]

theorem conclude (s : Site) (lane : Lane) (job : Job) (v : Verdict) (result : Result) :
    Tacit s (s.conclude lane job v result).1 := by
  have hend : Tacit s (s.update job.number fun x => { x with state := v.state, hasEnded := true }) :=
    update s _ (fun _ => by rfl) fun _ => by rfl
  unfold Site.conclude
  dsimp only
  split
  · exact hend.trans (notify _ rfl)
  · exact (hend.trans (update _ _ (fun _ => by rfl) fun _ => by rfl)).trans (notify _ rfl)

theorem run (s : Site) (lane : Lane) (job : Job) (r : Nat) : Tacit s (s.run lane job r) := by
  have hup : Tacit s (s.update job.number fun x => { x with state := .running, holds := some lane.host }) :=
    update s _ (fun _ => by rfl) fun _ => by rfl
  exact (hup.trans (notify _ rfl)).trans (notify _ rfl)

theorem look (s : Site) (lane : Lane) (job : Job) (r : Nat) : Tacit s (s.look lane job r) := by
  unfold Site.look
  split
  · have hc : Tacit s (s.concludeCanceled lane job).1 := conclude s lane job _ _
    split
    · next he =>
      rw [he] at hc
      exact hc.trans (notify _ rfl)
    · next he =>
      rw [he] at hc
      exact hc
  · unfold Site.queue
    dsimp only
    split
    · exact (setLock s _ _).trans (run _ lane job r)
    · exact same rfl rfl

theorem request (s : Site) (lane : Lane) (n : Nat) : Tacit s (s.request lane n).1 := by
  have hreq : Tacit s { s with requests := s.requests + 1 } := same rfl rfl
  unfold Site.request
  dsimp only
  split
  · exact hreq
  · split
    · exact (hreq.trans (update _ n (fun _ => by rfl) fun _ => by rfl)).trans (look _ lane _ _)
    · exact hreq.trans (notify _ rfl)

theorem expire (s : Site) (t : Ticket) : Tacit s (s.expire t) := by
  unfold Site.expire
  dsimp only
  split
  · split
    · exact (setLock s _ _).trans (look _ _ _ _)
    · exact setLock s _ _
  · exact refl s

theorem take (s : Site) (host : String) : Tacit s (s.take host) := by
  unfold Site.take
  split
  · exact refl s
  · dsimp only
    split
    · exact (setLock s _ _).trans (run _ _ _ _)
    · exact setLock s _ _

theorem giveBack (s : Site) (host : String) : Tacit s (s.giveBack host) := by
  unfold Site.giveBack
  split
  · exact refl s
  · dsimp only
    split
    · exact (setLock s _ _).trans (look _ _ _ _)
    · exact setLock s _ _

theorem cancel (s : Site) (lane : Lane) (n : Nat) : Tacit s (s.cancel lane n) := by
  have hup : Tacit s (s.update n fun x => { x with isCanceled := true }) :=
    update s n (fun _ => by rfl) fun _ => by rfl
  unfold Site.cancel
  dsimp only
  split
  · split
    · exact hup.trans (conclude _ lane _ _ _)
    · exact hup
  · exact hup

theorem finish (s : Site) (lane : Lane) (n : Nat) (succeeded : Bool) : Tacit s (s.finish lane n succeeded).1 := by
  unfold Site.finish
  split
  · exact refl s
  · next job _ =>
    have hrel : Tacit s (s.releaseLock job) := by
      unfold Site.releaseLock
      split
      · exact (update s _ (fun _ => by rfl) fun _ => by rfl).trans (setLock _ _ _)
      · exact refl s
    exact hrel.trans (conclude _ lane job _ _)

end Tacit

/-- A move is a report of a running build, not one of the builds' own. -/
def Move.isReport : Move → Bool
  | .progress .. | .addErrors .. | .addWarnings .. | .store .. => true
  | _ => false

theorem Move.tacit {m : Move} (hr : m.isReport = false)
    (hm : ∀ project task isTest parent, m ≠ .create project task isTest parent) (s : Site) : Tacit s (s.after m) := by
  cases m with
  | create project task isTest parent => exact absurd rfl (hm _ _ _ _)
  | start lane n => exact .request s lane n
  | expire t => exact .expire s t
  | take host => exact .take s host
  | giveBack host => exact .giveBack s host
  | cancel lane n => exact .cancel s lane n
  | finish lane n succeeded => exact .finish s lane n succeeded
  | cancelToken token | wait ms => exact .same rfl rfl
  | awaitResult n | serveReaders n => exact .update s n (fun _ => by rfl) fun _ => by rfl
  | progress lane n text | addErrors n k | addWarnings n k | store n artifacts => cases hr

namespace Orderly

variable {l : Ledger} {m : Move} {b : Nat}

theorem story_after (o : Orderly l none none) (hr : m.isReport = false) {marks : List Progress}
    (hm : (l.after m).site.marks b = l.site.marks b ++ marks) :
    (l.after m).site.story b = l.site.story b ++ marks := by
  obtain ⟨more, hmore⟩ := o.notices_after m
  have htexts : more.filter Notice.isText = [] := by
    cases m with
    | create project task isTest parent =>
      have : l.site.notices ++ more = l.site.notices := hmore
      rw [List.append_right_eq_self.1 this]
      rfl
    | _ =>
      have h := (Move.tacit hr (fun _ _ _ _ h => by cases h) l.site).texts
      simp only [Site.texts] at h
      change (l.after _).site.notices.filter _ = _ at h
      rw [← hmore, List.filter_append] at h
      exact List.append_right_eq_self.1 h
  have hmarks : more.filterMap (Notice.mark? b) = marks := by
    rw [Site.marks, ← hmore, List.filterMap_append] at hm
    exact List.append_cancel_left hm
  rw [Site.story, ← hmore, List.filterMap_append, filterMap_event? htexts, hmarks]
  rfl

theorem artifacts?_after (o : Orderly l none none) (hr : m.isReport = false) (hb : l.site.state? b ≠ none) :
    (l.after m).site.artifacts? b = l.site.artifacts? b := by
  cases m with
  | create project task isTest parent =>
    obtain ⟨job, -, -, -, -, -, hnone, hjob⟩ := o.rows.job?_newJob project task isTest parent
    have hne : b ≠ l.site.jobs.length + 1 := fun he => hb (by simp [Site.state?, he, hnone])
    have hj : (l.after (.create project task isTest parent)).site.job? b = l.site.job? b := by
      change (l.site.newJob project task isTest parent).1.job? b = _
      rw [hjob, if_neg hne]
    rw [Site.artifacts?, hj]
    rfl
  | _ => exact (Move.tacit hr (fun _ _ _ _ h => by cases h) l.site).artifacts b

end Orderly

end CrateYard.Build
