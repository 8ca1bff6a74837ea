import CrateYard.Path.Manifest
import CrateYard.Proofs.FileTree.Way

/-! Spellings of a manifest. Many paths lead to one directory: through links, with dots and doubled slashes. Each of
them, and each with the name of the manifest behind it, has the same manifest, namely the file at the end of the way
from the directory. Only the limits of the system tell the spellings apart: a way may be more than it takes, and then
the manifest is refused for that reason. -/

namespace CrateYard.FileTree

variable {t : FileTree} {here m l d : Location} {todo more front : List String} {met further : List Location}
  {name : String} {p : Path} {e : Entry}

/-- The path leads to a location; on the way these places are met. -/
structure Names (t : FileTree) (p : Path) (met : List Location) (l : Location) : Prop where
  notEmpty : p.isEmpty = false
  noNul : p.text.toList.contains '\x00' = false
  way : t.Way (t.start p) p.segments met l

def WithinLimits (t : FileTree) (met : List Location) : Prop :=
  (∀ m ∈ met, canAsk m = true) ∧ t.links met ≤ linkLimit

theorem WithinLimits.of_append (h : t.WithinLimits (met ++ further)) : t.WithinLimits met := by
  obtain ⟨hask, hlinks⟩ := h
  rw [links, List.countP_append] at hlinks
  exact ⟨fun m hm => hask m (List.mem_append_left _ hm), Nat.le_trans (Nat.le_add_right _ _) hlinks⟩

/-- The ways of spelling the manifest of a directory: a path to the directory that the system takes, or the name of the
manifest behind a path to it. -/
inductive Spelling (t : FileTree) (d : Location) : Path → List Location → Prop where
  | directory {p : Path} {met : List Location} (h : t.Names p met d) (hlength : p.text.utf8ByteSize < pathLimit) :
      Spelling t d p met
  | manifest {p : Path} {met : List Location} (h : t.Names p met d) : Spelling t d (p.join .manifestName) met

namespace Names

/-- A name behind the path is looked up where the path leads. -/
theorem join (h : t.Names p met d) (hname : '/' ∉ name.toList) (hnul : '\x00' ∉ name.toList)
    (hway : t.Way d [name] further l) : t.Names (p.join ⟨name⟩) (met ++ further) l := by
  obtain ⟨front, hfront, hsegments⟩ := Path.segments_join hname h.notEmpty
  refine ⟨?_, ?_, ?_⟩
  · obtain ⟨rest, htext⟩ := Path.text_join p hname
    have hp : p.text ≠ "" := by simpa [Path.isEmpty] using h.notEmpty
    simp [Path.isEmpty, htext, hp]
  · have hp : '\x00' ∉ p.text.toList := by simpa using h.noNul
    rw [Path.join, if_neg (by simp [Path.isAbsolute_of_notMem hname])]
    split <;> simp [hp, hnul]
  · rw [start_join hname h.notEmpty, hsegments]
    rcases hfront with hfront | hfront
    · rw [← hfront]
      exact h.way.append hway
    · -- the slash at the end of the path is an empty segment, at which the way stays
      have hall := h.way
      rw [hfront] at hall
      obtain ⟨m, first, second, hfirst, hsecond, rfl⟩ := hall.split
      obtain ⟨rfl, rfl⟩ := hsecond.eq_of_empty
      rw [List.append_nil]
      exact hfirst.append hway

theorem resolve_eq_ok (h : t.Names p met l) (hlimits : t.WithinLimits met) : t.resolve p = .ok l := by
  rw [resolve, h.noNul, h.notEmpty]
  exact h.way.walk_eq_ok hlimits.1 hlimits.2

theorem resolve_eq_error (h : t.Names p met l) (hlimits : ¬t.WithinLimits met) :
    t.resolve p = .error .nameTooLong ∨ t.resolve p = .error .tooManyLinks := by
  rw [resolve, h.noNul, h.notEmpty]
  exact h.way.walk_eq_error hlimits

theorem canonical_eq_ok (h : t.Names p met l) (he : t.entry? l = some e) (hlimits : t.WithinLimits met) :
    t.canonical p = .ok l.toPath := by
  rw [canonical, h.resolve_eq_ok hlimits]
  simp [bind, Except.bind, he]

theorem canonical_eq_error (h : t.Names p met l) (hlimits : ¬t.WithinLimits met) :
    t.canonical p = .error .nameTooLong ∨ t.canonical p = .error .tooManyLinks := by
  rw [canonical]
  rcases h.resolve_eq_error hlimits with hresolve | hresolve
  · left
    rw [hresolve]
    rfl
  · right
    rw [hresolve]
    rfl

theorem reach_eq_ok_iff (h : t.Names p met l) :
    t.reach p = .ok m ↔ (p.text.utf8ByteSize < pathLimit ∧ t.links met ≤ linkLimit) ∧ l = m := by
  rw [reach, h.noNul, h.notEmpty, if_neg Bool.false_ne_true, if_neg Bool.false_ne_true]
  by_cases hlength : p.text.utf8ByteSize < pathLimit
  · rw [if_pos hlength, follow]
    by_cases hlinks : t.links met ≤ linkLimit
    · rw [h.way.walk_eq_ok (fun _ _ => rfl) hlinks]
      simp [hlength, hlinks]
    · have hstopped : _ ∨ t.walk (fun _ => true) linkLimit (t.start p) p.segments = _ :=
        h.way.walk_eq_error fun hlimits => hlinks hlimits.2
      rcases hstopped with hwalk | hwalk <;> simp [hwalk, hlinks]
  · simp [hlength]

theorem isDirectory_iff (h : t.Names p met l) :
    t.isDirectory p = true ↔
      (p.text.utf8ByteSize < pathLimit ∧ t.links met ≤ linkLimit) ∧ t.entry? l = some .directory := by
  have hfind : t.isDirectory p = true ↔ t.find p = .ok .directory := by
    unfold isDirectory
    split
    · next h => simp [h]
    · next h => simpa using h
  rw [hfind, find_eq_ok_iff]
  simp [h.reach_eq_ok_iff]

end Names

/-- In whatever way it is spelled, the manifest is the file at the end of the way, or the way is more than the system
takes. -/
theorem manifest_of_spelling {content : List UInt8} (h : t.Spelling d p met)
    (hway : t.Way d [Path.manifestName.text] further m) (hm : t.entry? m = some (.file content)) :
    (t.WithinLimits (met ++ further) → t.manifest p = .ok m.toPath) ∧
      (¬t.WithinLimits (met ++ further) →
        t.manifest p = .error .nameTooLong ∨ t.manifest p = .error .tooManyLinks) := by
  have hname : '/' ∉ Path.manifestName.text.toList ∧ '\x00' ∉ Path.manifestName.text.toList := by decide
  have hjoin : ∀ {p : Path}, t.Names p met d → t.Names (p.join .manifestName) (met ++ further) m :=
    fun h => h.join hname.1 hname.2 hway
  cases h with
  | manifest h =>
    have hfile := hjoin h
    rw [manifest, if_neg fun hdirectory => ?_]
    · exact ⟨hfile.canonical_eq_ok hm, hfile.canonical_eq_error⟩
    · obtain ⟨-, he⟩ := hfile.isDirectory_iff.1 hdirectory
      cases he.symm.trans hm
  | directory h hlength =>
    by_cases hlinks : t.links met ≤ linkLimit
    · rw [manifest, if_pos (h.isDirectory_iff.2 ⟨⟨hlength, hlinks⟩, hway.directory_of_cons⟩)]
      exact ⟨(hjoin h).canonical_eq_ok hm, (hjoin h).canonical_eq_error⟩
    · -- the system sees no directory, and the path itself is resolved, which fails for the same reason
      have hlimits : ¬t.WithinLimits met := fun hlimits => hlinks hlimits.2
      rw [manifest, if_neg fun hdirectory => hlinks (h.isDirectory_iff.1 hdirectory).1.2]
      exact ⟨fun hall => absurd hall.of_append hlimits, fun _ => h.canonical_eq_error hlimits⟩

end CrateYard.FileTree
