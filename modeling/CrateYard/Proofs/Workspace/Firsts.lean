import CrateYard.Workspace.Graph
import Mathlib.Data.List.Basic

/-! Lists in which the first item with a key counts. A search that carries the keys it has met keeps an item exactly
when no item before it has its key; so each key is kept once, and nothing is left out where no key is repeated. -/

namespace CrateYard

variable {α κ : Type} {key : α → κ} {seen : List κ} {before l : List α}

/-- The items of a list, each with those before it, the nearest of them first. -/
def placed (before : List α) : List α → List (List α × α)
  | [] => []
  | a :: rest => (before, a) :: placed (a :: before) rest

@[simp] theorem map_snd_placed (before l : List α) : (placed before l).map Prod.snd = l := by
  induction l generalizing before with
  | nil => rfl
  | cons a rest ih => rw [placed, List.map_cons, ih]

/-- The keys that were seen are those of the items before. -/
def Records (key : α → κ) (seen : List κ) (before : List α) : Prop :=
  ∀ k, k ∈ seen ↔ k ∈ before.map key

namespace Records

theorem nil : Records key [] [] := fun _ => Iff.rfl

theorem cons (h : Records key seen before) (a : α) : Records key (key a :: seen) (a :: before) := by
  intro k
  rw [List.map_cons, List.mem_cons, List.mem_cons, h k]

theorem skip (h : Records key seen before) {a : α} (ha : key a ∈ seen) : Records key seen (a :: before) := by
  intro k
  rw [List.map_cons, List.mem_cons, ← h k]
  constructor
  · exact .inr
  · rintro (rfl | hk)
    · exact ha
    · exact hk

end Records

variable [DecidableEq κ]

def isFirst (key : α → κ) (item : List α × α) : Bool :=
  key item.2 ∉ item.1.map key

/-- The items that are the first with their key. -/
def firsts (key : α → κ) (l : List α) : List α :=
  ((placed [] l).filter (isFirst key)).map Prod.snd

/-- The items that are the first with their key, given the keys already seen. -/
def firstsBy (key : α → κ) (seen : List κ) : List α → List α
  | [] => []
  | a :: rest =>
    if key a ∈ seen then firstsBy key seen rest else a :: firstsBy key (key a :: seen) rest

theorem Records.isFirst_eq (h : Records key seen before) (a : α) :
    isFirst key (before, a) = decide (key a ∉ seen) := by
  simp only [isFirst, h (key a)]

theorem firstsBy_eq_placed (h : Records key seen before) :
    firstsBy key seen l = ((placed before l).filter (isFirst key)).map Prod.snd := by
  induction l generalizing seen before with
  | nil => rfl
  | cons a rest ih =>
    rw [firstsBy, placed, List.filter_cons, h.isFirst_eq]
    by_cases ha : key a ∈ seen
    · simp [ha, ih (h.skip ha)]
    · simp [ha, ih (h.cons a)]

theorem firsts_eq_firstsBy (key : α → κ) (l : List α) : firsts key l = firstsBy key [] l :=
  (firstsBy_eq_placed .nil).symm

theorem mem_keys_firstsBy {k : κ} : k ∈ (firstsBy key seen l).map key ↔ k ∈ l.map key ∧ k ∉ seen := by
  induction l generalizing seen with
  | nil => simp [firstsBy]
  | cons a rest ih =>
    rw [firstsBy]
    by_cases ha : key a ∈ seen
    · rw [if_pos ha, ih, List.map_cons, List.mem_cons]
      constructor
      · rintro ⟨hk, hs⟩
        exact ⟨.inr hk, hs⟩
      · rintro ⟨rfl | hk, hs⟩
        · exact absurd ha hs
        · exact ⟨hk, hs⟩
    · rw [if_neg ha, List.map_cons, List.mem_cons, ih, List.map_cons, List.mem_cons, List.mem_cons]
      by_cases hk : k = key a
      · simp [hk, ha]
      · simp [hk]

theorem nodup_keys_firstsBy : ((firstsBy key seen l).map key).Nodup := by
  induction l generalizing seen with
  | nil => simp [firstsBy]
  | cons a rest ih =>
    rw [firstsBy]
    split
    · exact ih
    · rw [List.map_cons, List.nodup_cons, mem_keys_firstsBy]
      exact ⟨fun h => h.2 List.mem_cons_self, ih⟩

theorem firstsBy_of_nodup (h : (l.map key).Nodup) (hs : ∀ a ∈ l, key a ∉ seen) : firstsBy key seen l = l := by
  induction l generalizing seen with
  | nil => rfl
  | cons a rest ih =>
    rw [List.map_cons, List.nodup_cons] at h
    rw [firstsBy, if_neg (hs a List.mem_cons_self), ih h.2 fun b hb => ?_]
    rw [List.mem_cons, not_or]
    exact ⟨fun he => h.1 (he ▸ List.mem_map_of_mem hb), hs b (List.mem_cons_of_mem a hb)⟩

namespace Graph

theorem firstsFrom_eq (seen : List PackageId) (packages : List Package) :
    firstsFrom seen packages = firstsBy (·.id) seen packages := by
  induction packages generalizing seen with
  | nil => rfl
  | cons p rest ih => simp only [firstsFrom, firstsBy, List.contains_iff_mem, ih]

theorem firstEdgesFrom_eq (seen : List PackageId) (edges : List Dependency) :
    firstEdgesFrom seen edges = firstsBy (·.package) seen edges := by
  induction edges generalizing seen with
  | nil => rfl
  | cons d rest ih => simp only [firstEdgesFrom, firstsBy, List.contains_iff_mem, ih]

end Graph

end CrateYard
