import CrateYard.Build.Run
import CrateYard.Proofs.Build.Story
import CrateYard.Proofs.Output.Artifacts

/-! The order in which a build lists its artifacts. They are gathered in a table by target, which yields them in any
order, and are sorted by package and target name. But a target is known by its kinds too, and a library and a binary of
one package may have one name. Sorting leaves those that agree in package and name as the table yielded them. So the
list is the build's own exactly if no two of its targets agree in both. -/

namespace CrateYard

section Sorted

variable {α κ : Type} [DecidableEq κ] {le : α → α → Bool} (key : α → κ) {l m : List α}

/-- Items with one key keep their order when a list is sorted, if the key is what it is sorted by. -/
theorem filter_mergeSort (htrans : ∀ a b c, le a b = true → le b c = true → le a c = true)
    (htotal : ∀ a b, (le a b || le b a) = true) (htie : ∀ a b, key a = key b → le a b = true) (l : List α) (k : κ) :
    ((l.mergeSort le).filter fun a => key a = k) = l.filter fun a => key a = k := by
  have hpairwise : (l.filter fun a => key a = k).Pairwise fun a b => le a b = true := by
    apply List.pairwise_of_forall_mem_list
    intro a ha b hb
    have hka := (List.mem_filter.1 ha).2
    have hkb := (List.mem_filter.1 hb).2
    simp only [decide_eq_true_eq] at hka hkb
    exact htie a b (hka.trans hkb.symm)
  have hsub : (l.filter fun a => key a = k).Sublist (l.mergeSort le) :=
    List.sublist_mergeSort htrans htotal hpairwise List.filter_sublist
  have hsub' : (l.filter fun a => key a = k).Sublist ((l.mergeSort le).filter fun a => key a = k) := by
    simpa using hsub.filter fun a => key a = k
  have hlength : ((l.mergeSort le).filter fun a => key a = k).length = (l.filter fun a => key a = k).length :=
    ((List.mergeSort_perm l le).filter _).length_eq
  exact (hsub'.eq_of_length hlength.symm).symm

variable {key}

theorem mem_iff_of_filter_eq (h : ∀ k, (l.filter fun a => key a = k) = m.filter fun a => key a = k) (a : α) :
    a ∈ l ↔ a ∈ m := by
  have ha : a ∈ (l.filter fun b => key b = key a) ↔ a ∈ m.filter fun b => key b = key a := by rw [h]
  simpa using ha

/-- A sorted list is known from the order of the items with each key. -/
theorem eq_of_filter_eq (hsep : ∀ a b, le a b = true → le b a = true → key a = key b)
    (hl : l.Pairwise fun a b => le a b = true) (hm : m.Pairwise fun a b => le a b = true)
    (h : ∀ k, (l.filter fun a => key a = k) = m.filter fun a => key a = k) : l = m := by
  have hmem := mem_iff_of_filter_eq h
  induction l generalizing m with
  | nil =>
    symm
    rw [List.eq_nil_iff_forall_not_mem]
    intro a ha
    exact List.not_mem_nil ((hmem a).2 ha)
  | cons a l ih =>
    cases m with
    | nil => exact absurd ((hmem a).1 List.mem_cons_self) List.not_mem_nil
    | cons b m =>
      rw [List.pairwise_cons] at hl hm
      -- each of the two heads is in the other list, so that they have one key, and each is the first with it
      have hkey : key a = key b := by
        rcases List.mem_cons.1 ((hmem a).1 List.mem_cons_self) with rfl | ha
        · rfl
        · rcases List.mem_cons.1 ((hmem b).2 List.mem_cons_self) with rfl | hb
          · rfl
          · exact hsep a b (hl.1 b hb) (hm.1 a ha)
      have hheads := h (key a)
      simp only [List.filter_cons, hkey, decide_true, if_true] at hheads
      obtain ⟨rfl, -⟩ := List.cons.inj hheads
      have htail : ∀ k, (l.filter fun a => key a = k) = m.filter fun a => key a = k := by
        intro k
        have hk := h k
        by_cases ha : key a = k <;> simpa [ha] using hk
      rw [ih hl.2 hm.2 htail (mem_iff_of_filter_eq htail)]

end Sorted

namespace Output

namespace TargetRef

variable {a b c : TargetRef}

/-- What artifacts are listed by. -/
def label (k : TargetRef) : String × String :=
  (k.packageId, k.targetName)

/-- Package first, then name. -/
def compareLabel : TargetRef → TargetRef → Ordering :=
  compareLex (compareOn packageId) (compareOn targetName)

instance : Std.TransCmp compareLabel :=
  inferInstanceAs (Std.TransCmp (compareLex (compareOn packageId) (compareOn targetName)))

theorem leName_eq (a b : TargetRef) : leName a b = (compareLabel a b).isLE := by
  simp only [leName, compareLabel, compareLex, compareOn]
  cases compare a.packageId b.packageId <;> rfl

theorem compareLabel_eq_iff : compareLabel a b = .eq ↔ a.label = b.label := by
  simp [compareLabel, compareLex_eq_eq, compareOn, label]

theorem leName_trans (a b c : TargetRef) (h : leName a b = true) (h' : leName b c = true) : leName a c = true := by
  rw [leName_eq] at h h' ⊢
  exact Std.TransCmp.isLE_trans h h'

theorem leName_total (a b : TargetRef) : (leName a b || leName b a) = true := by
  have hswap : compareLabel b a = (compareLabel a b).swap := Std.OrientedCmp.eq_swap
  rw [leName_eq, leName_eq, hswap]
  cases compareLabel a b <;> rfl

theorem leName_of_label_eq (h : a.label = b.label) : leName a b = true := by
  rw [leName_eq, compareLabel_eq_iff.2 h]
  rfl

theorem label_eq_of_leName (h : leName a b = true) (h' : leName b a = true) : a.label = b.label := by
  rw [leName_eq] at h h'
  exact compareLabel_eq_iff.1 (Std.OrientedCmp.isLE_antisymm h h')

end TargetRef

variable {artifacts order order' : List Artifact}

/-- The artifacts of one package and target name stand in one order in both lists. -/
def SameTies (order order' : List Artifact) : Prop :=
  ∀ label, (order.filter fun a => a.target.label = label) = order'.filter fun a => a.target.label = label

namespace Artifact

theorem leName_trans (a b c : Artifact) (h : a.target.leName b.target = true) (h' : b.target.leName c.target = true) :
    a.target.leName c.target = true :=
  TargetRef.leName_trans _ _ _ h h'

theorem leName_total (a b : Artifact) : (a.target.leName b.target || b.target.leName a.target) = true :=
  TargetRef.leName_total _ _

theorem pairwise_listed (artifacts : List Artifact) :
    (listed artifacts).Pairwise fun a b => a.target.leName b.target = true :=
  List.pairwise_mergeSort leName_trans leName_total artifacts

theorem filter_label_listed (artifacts : List Artifact) (label : String × String) :
    ((listed artifacts).filter fun a => a.target.label = label) = artifacts.filter fun a => a.target.label = label :=
  filter_mergeSort (fun a => a.target.label) leName_trans leName_total (fun _ _ => TargetRef.leName_of_label_eq)
    artifacts label

end Artifact

/-- What a list of artifacts says of its order before it was sorted is the order of the ties. -/
theorem listed_eq_iff : Artifact.listed order = Artifact.listed order' ↔ SameTies order order' := by
  constructor
  · intro h label
    rw [← Artifact.filter_label_listed order, h, Artifact.filter_label_listed order']
  · intro h
    have hsep : ∀ a b : Artifact, a.target.leName b.target = true → b.target.leName a.target = true →
        a.target.label = b.target.label := fun _ _ => TargetRef.label_eq_of_leName
    apply eq_of_filter_eq hsep (Artifact.pairwise_listed order) (Artifact.pairwise_listed order')
    intro label
    rw [Artifact.filter_label_listed, Artifact.filter_label_listed, h]

theorem sameTies_of_nodup (hlabels : (artifacts.map fun a => a.target.label).Nodup) (ho : order.Perm artifacts)
    (ho' : order'.Perm artifacts) : SameTies order order' := by
  rw [← listed_eq_iff]
  have hperm (order : List Artifact) (ho : order.Perm artifacts) : (Artifact.listed order).Perm artifacts :=
    (List.mergeSort_perm order _).trans ho
  apply List.Perm.eq_of_pairwise _ (Artifact.pairwise_listed order) (Artifact.pairwise_listed order')
    ((hperm order ho).trans (hperm order' ho').symm)
  intro a b ha hb hab hba
  exact List.inj_on_of_nodup_map hlabels ((hperm order ho).subset ha) ((hperm order' ho').subset hb)
    (TargetRef.label_eq_of_leName hab hba)

theorem nodup_of_sameTies (htargets : (artifacts.map Artifact.target).Nodup)
    (h : ∀ order order', order.Perm artifacts → order'.Perm artifacts → SameTies order order') :
    (artifacts.map fun a => a.target.label).Nodup := by
  rw [List.Nodup, List.pairwise_map, List.pairwise_iff_forall_sublist]
  intro a b hsub htie
  obtain ⟨rest, hrest⟩ := hsub.exists_perm_append
  have hswapped : (b :: a :: rest).Perm artifacts := (List.Perm.swap a b rest).trans hrest.symm
  have hties := h (a :: b :: rest) (b :: a :: rest) hrest.symm hswapped a.target.label
  simp only [List.filter_cons, htie, decide_true, if_true] at hties
  obtain ⟨rfl, -⟩ := List.cons.inj hties
  have hnodup := htargets.sublist (hsub.map Artifact.target)
  simp at hnodup

/-- The table that has these artifacts in this order. -/
def Artifacts.inOrder (order : List Artifact) : Artifacts :=
  ⟨order.map fun a => (a.target, a)⟩

theorem values_inOrder (order : List Artifact) : (Artifacts.inOrder order).values = order := by
  rw [Table.values, Artifacts.inOrder, List.map_map]
  exact List.map_id order

theorem Artifacts.Keyed.inOrder_values {t : Artifacts} (h : t.Keyed) : Artifacts.inOrder t.values = t := by
  have hentries : (t.entries.map fun e => (e.2.target, e.2)) = t.entries := by
    refine (List.map_congr_left ?_).trans (List.map_id t.entries)
    intro e he
    rw [h.target e he]
    rfl
  rw [Artifacts.inOrder, Table.values, List.map_map]
  exact congrArg Table.mk hentries

theorem Artifacts.Keyed.nodup_targets {t : Artifacts} (h : t.Keyed) : (t.values.map Artifact.target).Nodup := by
  have hkeys : t.values.map Artifact.target = t.keys := by
    rw [Table.values, List.map_map]
    exact List.map_congr_left h.target
  rw [hkeys]
  exact h.nodup

end Output

namespace Build

open Output (Artifact Artifacts SameTies Transcript)

/-- The artifacts that a build has when its process has ended, if their table yields them in this order. -/
def Site.storedFrom (s : Site) (build : Nat) (t : Transcript) (exit : Exit) (order : List Artifact) :
    Option (List Artifact) :=
  (s.complete build { t with artifacts := .inOrder order } exit).1.artifacts? build

variable {s : Site} {build : Nat} {t : Transcript} {exit : Exit} {order order' : List Artifact}

theorem Site.storedFrom_eq {job : Job} (hjob : s.job? build = some job) (t : Transcript) (exit : Exit)
    (order : List Artifact) :
    s.storedFrom build t exit order =
      some (if (s.complete build t exit).2 = true then Artifact.listed order else []) := by
  have hend : (s.complete build { t with artifacts := .inOrder order } exit).2 = (s.complete build t exit).2 := rfl
  unfold storedFrom artifacts?
  rw [← hend, complete]
  dsimp only
  rw [Site.job?_update_self (fun _ => by rfl) s build hjob]
  split
  · next hyes =>
    rw [Transcript.result, if_pos hyes, Output.values_inOrder]
    rfl
  · next hno =>
    rw [Transcript.result, if_neg hno]
    simp [Artifact.listed, Table.values, Table.empty]

/-- Two orders of the table give a build one list exactly if it did not succeed or the artifacts that tie stand in one
order in both. All orders of the artifacts that were gathered give it the list that it has exactly if it did not succeed or
no two of them tie. -/
theorem storedFrom_eq_iff (s : Site) (build : Nat) (t : Transcript) (exit : Exit)
    (hjob : (s.job? build).isSome = true) (hkeyed : t.artifacts.Keyed) :
    (s.complete build t exit).1.artifacts? build = s.storedFrom build t exit t.artifacts.values ∧
    (∀ order order', s.storedFrom build t exit order = s.storedFrom build t exit order' ↔
      ((s.complete build t exit).2 = true → SameTies order order')) ∧
    ((∀ order order', order.Perm t.artifacts.values → order'.Perm t.artifacts.values →
        s.storedFrom build t exit order = s.storedFrom build t exit order') ↔
      ((s.complete build t exit).2 = true → (t.artifacts.values.map fun a => a.target.label).Nodup)) := by
  obtain ⟨job, hjob⟩ := Option.isSome_iff_exists.1 hjob
  have hstored : ∀ order order', s.storedFrom build t exit order = s.storedFrom build t exit order' ↔
      ((s.complete build t exit).2 = true → SameTies order order') := by
    intro order order'
    rw [Site.storedFrom_eq hjob, Site.storedFrom_eq hjob, Option.some_inj]
    by_cases hyes : (s.complete build t exit).2 = true
    · simp [hyes, Output.listed_eq_iff]
    · simp [hyes]
  refine ⟨?_, hstored, ?_, ?_⟩
  · rw [Site.storedFrom, hkeyed.inOrder_values]
  · intro hall hyes
    apply Output.nodup_of_sameTies hkeyed.nodup_targets
    intro order order' ho ho'
    exact (hstored order order').1 (hall order order' ho ho') hyes
  · intro hnodup order order' ho ho'
    rw [hstored]
    intro hyes
    exact Output.sameTies_of_nodup (hnodup hyes) ho ho'

/-! A package with a library and a binary of one name. -/

def madeAs (kind : String) : Artifact :=
  ⟨⟨"app 1.0.0", "app", [kind]⟩, [], none, false⟩

def madeBoth : Transcript :=
  { Transcript.start with artifacts := .inOrder [madeAs "lib", madeAs "bin"] }

def runningSite : Site :=
  ((Site.start.newJob (.new ⟨"/ws/Cargo.toml"⟩) "build" false none).1.request ⟨1, "/ws", 100⟩ 1).1

theorem storedFrom_eq_iff_library :
    (runningSite.job? 1).isSome = true ∧ madeBoth.artifacts.Keyed ∧
      [madeAs "lib", madeAs "bin"].Perm madeBoth.artifacts.values ∧
      [madeAs "bin", madeAs "lib"].Perm madeBoth.artifacts.values ∧
      runningSite.storedFrom 1 madeBoth (.code 0) [madeAs "lib", madeAs "bin"] ≠
        runningSite.storedFrom 1 madeBoth (.code 0) [madeAs "bin", madeAs "lib"] := by
  have hjob : (runningSite.job? 1).isSome = true := by decide
  have hkeyed : madeBoth.artifacts.Keyed := ⟨by decide, by decide⟩
  obtain ⟨-, hiff, -⟩ := storedFrom_eq_iff runningSite 1 madeBoth (.code 0) hjob hkeyed
  refine ⟨hjob, hkeyed, by decide, by decide, ?_⟩
  intro heq
  have hties := (hiff _ _).1 heq (by decide) ("app 1.0.0", "app")
  revert hties
  decide

end Build

end CrateYard
