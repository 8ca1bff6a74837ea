import CrateYard.FileTree.Resolve
import Mathlib.Data.List.Basic

/-! Deleting from a file tree. What is still there after a deletion was there before, so a walk that goes through the
smaller tree goes the same way through the larger one. A path that led to what was deleted therefore leads nowhere
afterwards, and it is only known by its text. -/

namespace CrateYard.FileTree

variable {t : FileTree} {fits : Location → Bool} {l m here : Location} {p q : Path} {e : Entry}

theorem lookup_filter_key {α β : Type} [BEq α] [LawfulBEq α] (keep : α → Bool) (entries : List (α × β)) (k : α) :
    (entries.filter fun x => keep x.1).lookup k = if keep k then entries.lookup k else none := by
  induction entries with
  | nil => simp
  | cons x rest ih =>
    obtain ⟨a, b⟩ := x
    by_cases hk : k = a
    · subst hk
      by_cases ha : keep k = true
      · simp [ha]
      · simpa [ha] using ih
    · have hne : (k == a) = false := by simpa using hk
      by_cases ha : keep a = true
      · simpa [ha, List.lookup_cons, hne] using ih
      · simpa [ha, List.lookup_cons, hne] using ih

theorem entry?_erase (hm : m ≠ []) :
    entry? (t.erase l) m = if l.isPrefixOf m then none else t.entry? m := by
  have hempty : (m.map Name.text).isEmpty = false := by simpa using hm
  have hprefix : (l.map Name.text).isPrefixOf (m.map Name.text) = l.isPrefixOf m := by
    rw [Bool.eq_iff_iff, List.isPrefixOf_iff_prefix, List.isPrefixOf_iff_prefix]
    refine ⟨fun h => ?_, fun h => h.map _⟩
    obtain ⟨l', hl, he⟩ := List.prefix_map_iff.1 h
    rwa [List.map_injective_iff.2 (fun _ _ => Name.text.inj) he]
  unfold entry? at? erase
  simp only [hempty]
  rw [lookup_filter_key (fun k => !(l.map Name.text).isPrefixOf k), hprefix]
  cases l.isPrefixOf m <;> simp

theorem entry?_of_erase (h : entry? (t.erase l) m = some e) : t.entry? m = some e := by
  by_cases hm : m = []
  · subst hm
    exact h
  · rw [entry?_erase hm] at h
    split at h
    · cases h
    · exact h

theorem entry?_erase_self (hl : l ≠ []) : entry? (t.erase l) l = none := by
  rw [entry?_erase hl]
  simp

/-- What a walk meets in the smaller tree it meets in the larger one. -/
theorem walk_of_erase {links : Nat} {todo : List String} (h : (t.erase l).walk fits links here todo = .ok m) :
    t.walk fits links here todo = .ok m := by
  fun_induction FileTree.walk (t.erase l) fits links here todo with
  | case1 links here =>
    rw [walk]
    exact h
  | case3 links here s rest hfits hdirectory hdot ih =>
    rw [walk, if_neg hfits, entry?_of_erase hdirectory]
    simp only [hdot, if_true]
    exact ih h
  | case4 links here rest hdirectory hfits hdot ih =>
    rw [walk, if_neg hfits, entry?_of_erase hdirectory]
    simp only [hdot, Bool.false_eq_true, if_false, if_true]
    exact ih h
  | case8 here s rest hfits hdirectory hdot hup hlength target hlink links ih =>
    rw [walk, if_neg hfits, entry?_of_erase hdirectory]
    simp only [hdot, hup, hlength, Bool.false_eq_true, if_false, entry?_of_erase hlink]
    exact ih h
  | case9 links here s rest hfits hdirectory hdot hup hlength e hnolink hentry ih =>
    rw [walk, if_neg hfits, entry?_of_erase hdirectory]
    simp only [hdot, hup, hlength, Bool.false_eq_true, if_false, entry?_of_erase hentry]
    exact ih h
  | case2 | case5 | case6 | case7 | case10 | case11 => cases h

theorem resolve_of_erase (h : (t.erase l).resolve p = .ok m) : t.resolve p = .ok m := by
  have hstart : (t.erase l).start p = t.start p := rfl
  unfold resolve at h ⊢
  split at h
  · cases h
  · next hnul =>
    split at h
    · cases h
    · next hempty =>
      rw [if_neg hnul, if_neg hempty, ← hstart]
      exact walk_of_erase h

theorem canonical_eq_ok_iff :
    t.canonical p = .ok q ↔ ∃ m e, t.resolve p = .ok m ∧ t.entry? m = some e ∧ m.toPath = q := by
  unfold canonical
  cases hresolve : t.resolve p with
  | error e => simp [bind, Except.bind]
  | ok m => cases hentry : t.entry? m <;> simp [bind, Except.bind, hentry]

theorem locate_of_resolve (h : t.resolve p = .ok m) (he : t.entry? m = some e) : t.locate p = m.toPath := by
  rw [locate, canonical_eq_ok_iff.2 ⟨m, e, h, he, rfl⟩]

theorem locate_erase (h : t.resolve p = .ok l) (hl : l ≠ []) : (t.erase l).locate p = p := by
  cases hcanonical : (t.erase l).canonical p with
  | error e => rw [locate, hcanonical]
  | ok q =>
    obtain ⟨m, e, hm, he, -⟩ := canonical_eq_ok_iff.1 hcanonical
    cases h.symm.trans (resolve_of_erase hm)
    rw [entry?_erase_self hl] at he
    cases he

end CrateYard.FileTree
