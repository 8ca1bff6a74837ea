import CrateYard.Proofs.Output.Interleaving
import Mathlib.Data.List.Nodup

/-! The artifacts of a transcript. They are kept by target, so the list that is handed out has one artifact for each
target that was reported, and that is the last one reported for it. -/

namespace CrateYard

namespace Table

variable {κ : Type} {α : Type} [DecidableEq κ]

theorem keys_set (t : Table κ α) (k : κ) (a : α) :
    (t.set k a).keys = if k ∈ t.keys then t.keys else t.keys ++ [k] := by
  have hmem : k ∈ t.keys ↔ (t.entries.any fun e => e.1 = k) = true := by
    simp [keys]
  unfold set
  by_cases hk : k ∈ t.keys
  · rw [if_pos hk, if_pos (hmem.1 hk)]
    unfold keys
    rw [List.map_map]
    apply List.map_congr_left
    intro e _
    by_cases he : e.1 = k <;> simp [he]
  · rw [if_neg hk, if_neg (fun h => hk (hmem.2 h))]
    simp [keys]

theorem nodup_keys_set {t : Table κ α} (h : t.keys.Nodup) (k : κ) (a : α) : (t.set k a).keys.Nodup := by
  rw [keys_set]
  split
  · exact h
  · next hk => exact h.append (List.nodup_singleton k) (by simpa using hk)

theorem mem_entries_set {t : Table κ α} {k : κ} {a : α} {e : κ × α} (he : e ∈ (t.set k a).entries) :
    e = (k, a) ∨ e ∈ t.entries := by
  unfold set at he
  split at he
  · obtain ⟨x, hx, rfl⟩ := List.mem_map.1 he
    by_cases hk : x.1 = k
    · exact .inl (by simp [hk])
    · exact .inr (by simpa [hk] using hx)
  · simpa [or_comm] using he

end Table

namespace Output

/-- Each artifact is kept under its own target, and no target is kept twice. -/
structure Artifacts.Keyed (t : Artifacts) : Prop where
  nodup : t.keys.Nodup
  target : ∀ e ∈ t.entries, e.2.target = e.1

namespace Artifacts.Keyed

theorem empty : Keyed .empty :=
  ⟨List.nodup_nil, by simp [Table.empty]⟩

theorem set {t : Artifacts} (h : Keyed t) (a : Artifact) : Keyed (t.set a.target a) := by
  refine ⟨Table.nodup_keys_set h.nodup _ _, ?_⟩
  intro e he
  rcases Table.mem_entries_set he with rfl | he
  · rfl
  · exact h.target e he

theorem filter_values {t : Artifacts} (h : Keyed t) (k : TargetRef) :
    (t.values.filter fun a => a.target = k) = (t.get? k).toList := by
  obtain ⟨entries⟩ := t
  obtain ⟨hnodup, htarget⟩ := h
  unfold Table.values Table.get?
  unfold Table.keys at hnodup
  induction entries with
  | nil => rfl
  | cons e rest ih =>
    obtain ⟨he, hrest⟩ := List.nodup_cons.1 hnodup
    have htail := ih hrest fun x hx => htarget x (List.mem_cons_of_mem _ hx)
    have hself : e.2.target = e.1 := htarget e List.mem_cons_self
    by_cases hk : e.1 = k
    · -- the rest holds no artifact of the target of `e`
      have hnone : rest.find? (fun x => x.1 = k) = none := by
        apply List.find?_eq_none.2
        intro x hx hxk
        have hx1 : x.1 = k := by simpa using hxk
        exact he (List.mem_map.2 ⟨x, hx, hx1.trans hk.symm⟩)
      simp only [hnone] at htail
      simpa [hself, hk] using htail
    · simpa [hself, hk] using htail

end Artifacts.Keyed

theorem Artifact.filter_listed {artifacts : List Artifact} {p : Artifact → Bool} {found : Option Artifact}
    (h : artifacts.filter p = found.toList) : (Artifact.listed artifacts).filter p = found.toList := by
  have hperm : ((Artifact.listed artifacts).filter p).Perm found.toList := by
    rw [← h]
    exact (List.mergeSort_perm artifacts _).filter p
  cases found with
  | none => exact hperm.eq_nil
  | some a => exact hperm.eq_singleton

namespace Transcript

theorem keyed_absorbAll {t : Transcript} (h : t.artifacts.Keyed) (events : List Event) :
    (events.foldl absorb t).artifacts.Keyed := by
  induction events generalizing t with
  | nil => exact h
  | cons e rest ih =>
    apply ih
    cases e with
    | artifact a => exact h.set a
    | _ => exact h

theorem keyed_run {t : Transcript} (h : t.artifacts.Keyed) (reads : List (Stream × List UInt8)) :
    (t.run reads).1.artifacts.Keyed := by
  rw [run_fst]
  exact keyed_absorbAll h _

theorem get?_artifacts_run (t : Transcript) (reads : List (Stream × List UInt8)) (k : TargetRef) :
    (t.run reads).1.artifacts.get? k =
      ((t.run reads).2.filterMap (Event.artifactOf? k)).getLast?.or (t.artifacts.get? k) := by
  rw [run_fst]
  change ((t.run reads).2.foldl absorb t).artifacts.get? k = _
  exact get?_absorbAll t _ k

/-- The list of artifacts that a run hands out has, for each target, the last artifact that was reported for it. -/
theorem filter_listed_run (reads : List (Stream × List UInt8)) (k : TargetRef) :
    ((Artifact.listed (start.run reads).1.artifacts.values).filter fun a => a.target = k) =
      ((start.run reads).2.filterMap (Event.artifactOf? k)).getLast?.toList := by
  apply Artifact.filter_listed
  rw [(keyed_run Artifacts.Keyed.empty reads).filter_values k, get?_artifacts_run]
  simp [start, Table.get?, Table.empty]

def readAll (t : Transcript) (reads : List (Stream × List UInt8)) : Transcript :=
  reads.foldl (fun t read => (t.readChunk read.1 read.2).1) t

theorem run_fst_eq_close (t : Transcript) (reads : List (Stream × List UInt8)) :
    (t.run reads).1 = (t.readAll reads).close.1 := by
  induction reads generalizing t with
  | nil => rfl
  | cons read rest ih => exact ih (t.readChunk read.1 read.2).1

theorem readAll_concat (t : Transcript) (reads : List (Stream × List UInt8)) (read : Stream × List UInt8) :
    t.readAll (reads ++ [read]) = ((t.readAll reads).readChunk read.1 read.2).1 := by
  rw [readAll, List.foldl_append]
  rfl

end Transcript

end Output

end CrateYard
