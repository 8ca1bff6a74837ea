import CrateYard.FileTree.Resolve

/-! What a path names: a directory or a file, by its canonical path. The root is a directory in every tree, and the
empty path names nothing. -/

namespace CrateYard.FileTree

variable {t : FileTree} {p q : Path}

/-- The directory that a path names, by its canonical path. -/
def directoryAt? (t : FileTree) (p : Path) : Option Path :=
  (t.canonical p).toOption.filter t.isDirectory

/-- The file that a path names, by its canonical path. -/
def fileAt? (t : FileTree) (p : Path) : Option Path :=
  (t.canonical p).toOption.filter t.isFile

theorem filter_toOption_canonical_eq_some_iff {keep : Path → Bool} :
    (t.canonical p).toOption.filter keep = some q ↔ t.canonical p = .ok q ∧ keep q = true := by
  rw [Option.filter_eq_some_iff]
  cases t.canonical p <;> simp [Except.toOption]

theorem directoryAt?_eq_some_iff : t.directoryAt? p = some q ↔ t.canonical p = .ok q ∧ t.isDirectory q = true :=
  filter_toOption_canonical_eq_some_iff

theorem fileAt?_eq_some_iff : t.fileAt? p = some q ↔ t.canonical p = .ok q ∧ t.isFile q = true :=
  filter_toOption_canonical_eq_some_iff

theorem canonical_of_isEmpty (h : p.isEmpty = true) : t.canonical p = .error .notFound := by
  have hp : p.text = "" := by simpa [Path.isEmpty] using h
  simp [canonical, resolve, Path.isEmpty, hp, bind, Except.bind]

/-- An absolute path that the system takes is followed from the root, by its segments. -/
theorem resolve_and_reach_of_isAbsolute (t : FileTree)
    (hp : p.isAbsolute = true ∧ p.isEmpty = false ∧ p.text.toList.contains '\x00' = false ∧
      p.text.utf8ByteSize < pathLimit) :
    t.resolve p = t.walk canAsk linkLimit [] p.segments ∧ t.reach p = t.follow [] p.segments := by
  obtain ⟨habsolute, hempty, hnul, hlength⟩ := hp
  constructor
  · simp only [resolve, start, hnul, hempty, habsolute, if_true, Bool.false_eq_true, if_false]
  · simp only [reach, start, hnul, hempty, habsolute, hlength, if_true, Bool.false_eq_true, if_false]

theorem canonical_and_find {l : Location} {e : Entry}
    (hp : p.isAbsolute = true ∧ p.isEmpty = false ∧ p.text.toList.contains '\x00' = false ∧
      p.text.utf8ByteSize < pathLimit)
    (hasked : t.walk canAsk linkLimit [] p.segments = .ok l) (hfollow : t.follow [] p.segments = .ok l)
    (he : t.entry? l = some e) : t.canonical p = .ok l.toPath ∧ t.find p = .ok e := by
  obtain ⟨hresolve, hreach⟩ := t.resolve_and_reach_of_isAbsolute hp
  constructor
  · rw [canonical, hresolve, hasked]
    simp [bind, Except.bind, he]
  · rw [find, hreach, hfollow]
    simp [bind, Except.bind, he]

theorem directoryAt?_root (t : FileTree) : t.directoryAt? ⟨"/"⟩ = some ⟨"/"⟩ := by
  have hwalk : ∀ fits, t.walk fits linkLimit [] (⟨"/"⟩ : Path).segments = .ok [] := fun fits => by
    rw [show (⟨"/"⟩ : Path).segments = ["", ""] by decide]
    simp [walk, isName, entry?]
  obtain ⟨hcanonical, hfind⟩ := canonical_and_find (t := t) (e := .directory) (by decide) (hwalk canAsk)
    (hwalk fun _ => true) rfl
  have hpath : Location.toPath [] = ⟨"/"⟩ := by decide
  have hdirectory : t.isDirectory ⟨"/"⟩ = true := by rw [isDirectory, hfind]
  rw [directoryAt?, hcanonical, hpath, Except.toOption, Option.filter_some, if_pos hdirectory]

end CrateYard.FileTree
