import CrateYard.Proofs.Build.Course

/-! What the clock does is among the courses: letting time pass is a row of moves that callers have no part in, so what
holds of every course holds between any two instants. -/

namespace CrateYard.Build

/-- A site is reached from another by moves that callers have no part in. -/
inductive Drifts (s : Site) : Site → Prop where
  | refl : Drifts s s
  | expire {s' : Site} (ticket : Ticket) : Drifts s s' → Drifts s (s'.expire ticket)
  | take {s' : Site} (host : String) : Drifts s s' → Drifts s (s'.take host)
  | serveReaders {s' : Site} (build : Nat) : Drifts s s' → Drifts s (s'.serveReaders build)
  | wait {s' : Site} (ms : Nat) : Drifts s s' → Drifts s { s' with now := s'.now + ms }

namespace Drifts

variable {s s' s'' : Site}

theorem trans (h : Drifts s s') (h' : Drifts s' s'') : Drifts s s'' := by
  induction h' with
  | refl => exact h
  | expire ticket _ ih => exact ih.expire ticket
  | take host _ ih => exact ih.take host
  | serveReaders build _ ih => exact ih.serveReaders build
  | wait ms _ ih => exact ih.wait ms

theorem foldl {α : Type} {f : Site → α → Site} (h : ∀ s a, Drifts s (f s a)) (s : Site) (l : List α) :
    Drifts s (l.foldl f s) := by
  induction l generalizing s with
  | nil => exact refl
  | cons a rest ih => exact (h s a).trans (ih (f s a))

theorem settle (s : Site) : Drifts s s.settle := by
  unfold Site.settle
  have hexpire : Drifts s (s.due.foldl Site.expire s) := foldl (fun _ t => refl.expire t) s _
  have htake := hexpire.trans (foldl (fun _ host => refl.take host) _ (s.due.foldl Site.expire s).locks.keys)
  exact htake.trans (foldl (fun _ build => refl.serveReaders build) _ _)

theorem to_now (s : Site) {time : Nat} (h : s.now ≤ time) : Drifts s { s with now := time } := by
  have hw := (refl (s := s)).wait (time - s.now)
  rwa [Nat.add_sub_cancel' h] at hw

theorem advanceTo (limit : Nat) (s : Site) : Drifts s (s.advanceTo limit) := by
  fun_induction Site.advanceTo limit s with
  | case1 s time _ h ih => exact ((to_now s (Nat.le_of_lt h.1)).trans (settle _)).trans ih
  | case2 s time _ h => exact to_now s (Nat.le_max_left _ _)
  | case3 s _ => exact to_now s (Nat.le_max_left _ _)

theorem course {l : Ledger} {s : Site} (h : Drifts l.site s) : ∃ moves, Course l moves { l with site := s } := by
  induction h with
  | refl => exact ⟨[], .nil⟩
  | expire ticket _ ih =>
    obtain ⟨moves, hc⟩ := ih
    exact ⟨_, hc.snoc (m := .expire ticket) trivial⟩
  | take host _ ih =>
    obtain ⟨moves, hc⟩ := ih
    exact ⟨_, hc.snoc (m := .take host) trivial⟩
  | serveReaders build _ ih =>
    obtain ⟨moves, hc⟩ := ih
    exact ⟨_, hc.snoc (m := .serveReaders build) trivial⟩
  | wait ms _ ih =>
    obtain ⟨moves, hc⟩ := ih
    exact ⟨_, hc.snoc (m := .wait ms) trivial⟩

end Drifts

/-- Letting time pass is a course. -/
theorem Ledger.course_advance (l : Ledger) (ms : Nat) : ∃ moves, Course l moves { l with site := l.site.advance ms } :=
  (Drifts.advanceTo _ _).course

end CrateYard.Build
