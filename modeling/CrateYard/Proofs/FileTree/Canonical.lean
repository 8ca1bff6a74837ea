import CrateYard.Proofs.FileTree.Deletion
import CrateYard.Proofs.FileTree.Named
import Mathlib.Data.List.Induction

/-! Canonical paths. The path of a location that can be asked about leads to that location and nowhere else: no link is
on the way, each name on it is one that a directory can hold, and all that is above an entry is a directory. So a
canonical path is its own canonical path, it names what the path that it was made from names, and no two locations have
the same one. -/

namespace CrateYard

namespace Text

variable {sep : Char} {piece : List Char} {pieces : List (List Char)}

theorem split_intercalate (hne : pieces ≠ []) (h : ∀ piece ∈ pieces, sep ∉ piece) :
    split sep ([sep].intercalate pieces) = pieces := by
  induction pieces with
  | nil => exact absurd rfl hne
  | cons piece rest ih =>
    have hpiece : sep ∉ piece := h piece List.mem_cons_self
    cases rest with
    | nil => simpa using split_of_notMem hpiece
    | cons next more =>
      rw [List.intercalate_cons_cons, List.append_assoc, List.singleton_append, split_append_cons,
        split_of_notMem hpiece, ih (List.cons_ne_nil _ _) fun p hp => h p (List.mem_cons_of_mem _ hp),
        List.singleton_append]

theorem eq_or_mem_of_mem_intercalate {c : Char} (h : c ∈ [sep].intercalate pieces) :
    c = sep ∨ ∃ piece ∈ pieces, c ∈ piece := by
  induction pieces with
  | nil => simp at h
  | cons piece rest ih =>
    by_cases hrest : rest = []
    · rw [hrest, List.intercalate_singleton] at h
      exact .inr ⟨piece, List.mem_cons_self, h⟩
    · rw [List.intercalate_cons_of_ne_nil hrest, List.append_assoc, List.mem_append, List.mem_append,
        List.mem_singleton] at h
      rcases h with h | rfl | h
      · exact .inr ⟨piece, List.mem_cons_self, h⟩
      · exact .inl rfl
      · exact (ih h).imp_right fun ⟨q, hq, hc⟩ => ⟨q, List.mem_cons_of_mem _ hq, hc⟩

end Text

namespace FileTree

variable {t : FileTree} {fits : Location → Bool} {links : Nat} {l m here : Location} {todo : List String} {s : String}
  {p q : Path} {e : Entry}

theorem isName_iff : isName s = true ↔ s ≠ "" ∧ s ≠ "." ∧ s ≠ ".." := by
  simp [isName, and_assoc]

/-- A name that a directory can hold. -/
def IsEntryName : Name → Prop
  | .text s => isName s = true ∧ '/' ∉ s.toList ∧ '\x00' ∉ s.toList ∧ s.utf8ByteSize ≤ nameLimit
  | .bytes b _ => 0x2F ∉ b ∧ 0 ∉ b ∧ b.length ≤ nameLimit

instance : (n : Name) → Decidable (IsEntryName n)
  | .text _ => inferInstanceAs (Decidable (_ ∧ _))
  | .bytes _ _ => inferInstanceAs (Decidable (_ ∧ _))

/-- The entries are those of a file system: each has a name, and what is above it is a directory. The working directory
can be asked about. -/
structure IsTree (t : FileTree) : Prop where
  name : ∀ x ∈ t.entries, ∀ n ∈ x.1, IsEntryName n
  parent : ∀ x ∈ t.entries, t.at? x.1.dropLast = some .directory
  workdir : canAsk t.workdir = true

theorem mem_entries_of_eq_some (hl : l ≠ []) (h : t.entry? l = some e) : (l.map .text, e) ∈ t.entries := by
  unfold entry? at? at h
  rw [if_neg (by simpa using hl), List.lookup_eq_some_iff] at h
  obtain ⟨before, after, hsplit, -⟩ := h
  simp [hsplit]

/-! What a tree says of the locations in it. -/

namespace IsTree

theorem isEntryName (ht : t.IsTree) (h : t.entry? l = some e) (hs : s ∈ l) : IsEntryName s :=
  ht.name _ (mem_entries_of_eq_some (List.ne_nil_of_mem hs) h) s (List.mem_map_of_mem hs)

theorem entry?_dropLast (ht : t.IsTree) (hl : l ≠ []) (h : t.entry? l = some e) :
    t.entry? l.dropLast = some .directory := by
  rw [ entry?, List.map_dropLast]
  exact ht.parent _ (mem_entries_of_eq_some hl h)

theorem directory_above (ht : t.IsTree) (h : t.entry? (l ++ [s]) = some e) : t.entry? l = some .directory := by
  have habove := ht.entry?_dropLast (by simp) h
  rwa [List.dropLast_concat] at habove

theorem directory_of_append (ht : t.IsTree) (hm : m ≠ []) (h : t.entry? (l ++ m) = some e) :
    t.entry? l = some .directory := by
  induction m using List.reverseRecOn generalizing e with
  | nil => exact absurd rfl hm
  | append_singleton m s ih =>
    rw [← List.append_assoc] at h
    have habove := ht.directory_above h
    by_cases hempty : m = []
    · rwa [hempty, List.append_nil] at habove
    · exact ih hempty habove

theorem directory_dropLast (ht : t.IsTree) (h : t.entry? l = some .directory) :
    t.entry? l.dropLast = some .directory := by
  by_cases hl : l = []
  · rw [hl]
    rfl
  · exact ht.entry?_dropLast hl h

end IsTree

/-! The path of a location. -/

theorem canAsk_of_append (h : canAsk (l ++ m) = true) : canAsk l = true := by
  unfold canAsk Location.toPath at *
  simp only [decide_eq_true_eq, String.utf8ByteSize_append] at *
  by_cases hl : l = []
  · rw [hl, String.intercalate_nil]
    decide
  · by_cases hm : m = []
    · rwa [hm, List.append_nil] at h
    · rw [String.intercalate_append_of_ne_nil hl hm, String.utf8ByteSize_append, String.utf8ByteSize_append] at h
      omega

theorem canAsk_dropLast (h : canAsk l = true) : canAsk l.dropLast = true := by
  by_cases hl : l = []
  · rw [hl]
    decide
  · rw [← List.dropLast_append_getLast hl] at h
    exact canAsk_of_append h

theorem toList_toPath (l : Location) : l.toPath.text.toList = '/' :: ['/'].intercalate (l.map String.toList) := by
  rw [Location.toPath, String.toList_append, String.toList_intercalate]
  rfl

theorem isAbsolute_toPath (l : Location) : l.toPath.isAbsolute = true := by
  simp [Path.isAbsolute, toList_toPath]

theorem isEmpty_toPath (l : Location) : l.toPath.isEmpty = false := by
  rw [Path.isEmpty, String.isEmpty_eq_false_iff]
  intro hempty
  have htext := toList_toPath l
  rw [hempty] at htext
  cases htext

theorem segments_toPath (hl : l ≠ []) (h : ∀ s ∈ l, '/' ∉ s.toList) : l.toPath.segments = "" :: l := by
  have hpieces : ∀ piece ∈ l.map String.toList, '/' ∉ piece := by
    intro piece hp
    obtain ⟨s, hs, rfl⟩ := List.mem_map.1 hp
    exact h s hs
  rw [Path.segments, toList_toPath, Text.split, if_pos rfl, Text.split_intercalate (by simpa using hl) hpieces]
  simp [List.map_map, Function.comp_def]

/-- The path of a location leads the way that its names lead. -/
theorem walk_segments_toPath (h : ∀ s ∈ l, '/' ∉ s.toList) :
    t.walk fits links [] l.toPath.segments = t.walk fits links [] l := by
  by_cases hl : l = []
  · rw [hl, show (Location.toPath []).segments = ["", ""] by decide]
    simp [walk, isName, entry?]
  · rw [segments_toPath hl h, walk]
    simp [isName, entry?]

theorem nul_notMem_toPath (h : ∀ s ∈ l, '\x00' ∉ s.toList) : l.toPath.text.toList.contains '\x00' = false := by
  rw [toList_toPath, List.contains_eq_mem, decide_eq_false_iff_not, List.mem_cons]
  rintro (hslash | hmem)
  · exact absurd hslash (by decide)
  · rcases Text.eq_or_mem_of_mem_intercalate hmem with hslash | ⟨piece, hpiece, hc⟩
    · exact absurd hslash (by decide)
    · obtain ⟨s, hs, rfl⟩ := List.mem_map.1 hpiece
      exact h s hs hc

/-! Walks to a location. -/

theorem directory_of_walk (h : t.walk fits links here (s :: todo) = .ok l) : t.entry? here = some .directory := by
  rw [walk] at h
  split at h
  · cases h
  · split at h
    · assumption
    · cases h
    · cases h

/-- The names of an entry lead to it from any directory above it, as far as the walk may go there. -/
theorem walk_names (ht : t.IsTree) (here : Location) (h : t.entry? (here ++ todo) = some e)
    (hlink : ∀ target, e ≠ .link target) (hfits : ∀ m, m ≠ [] → m <+: todo → fits (here ++ m) = true) :
    t.walk fits links here todo = .ok (here ++ todo) := by
  induction todo generalizing here with
  | nil => rw [walk, List.append_nil]
  | cons s rest ih =>
    obtain ⟨hname, -, -, hlength⟩ := ht.isEntryName (s := s) h (by simp)
    obtain ⟨hempty, hdot, hup⟩ := isName_iff.1 hname
    have hdirectory : t.entry? here = some .directory := ht.directory_of_append (List.cons_ne_nil _ _) h
    have hfirst : fits (here ++ [s]) = true := hfits [s] (List.cons_ne_nil _ _) (by simp)
    rw [List.append_cons] at h
    have hrest : t.walk fits links (here ++ [s]) rest = .ok (here ++ s :: rest) := by
      rw [ih _ h fun m hm hprefix => ?_, List.append_assoc, List.singleton_append]
      rw [List.append_assoc, List.singleton_append]
      exact hfits (s :: m) (List.cons_ne_nil _ _) (List.cons_prefix_cons.2 ⟨rfl, hprefix⟩)
    obtain ⟨first, hentry, hnolink⟩ :
        ∃ first, t.entry? (here ++ [s]) = some first ∧ ∀ target, first ≠ .link target := by
      by_cases hnil : rest = []
      · rw [hnil, List.append_nil] at h
        exact ⟨e, h, hlink⟩
      · exact ⟨.directory, ht.directory_of_append hnil h, fun _ => Entry.noConfusion⟩
    rw [walk]
    simp only [hname, hfirst, Bool.not_true, Bool.and_false, Bool.false_eq_true, if_false, hdirectory, hempty, hdot,
      hup, Nat.not_lt.2 hlength, hentry]
    cases first with
    | link target => exact absurd rfl (hnolink target)
    | _ => exact hrest

/-- A place where a walk that asks about all it meets may end: it can be asked about, and it is no link. -/
structure IsPlace (t : FileTree) (l : Location) : Prop where
  asked : canAsk l = true
  notLink : ∀ target, t.entry? l ≠ some (.link target)

theorem isPlace_nil (t : FileTree) : t.IsPlace [] :=
  ⟨by decide, fun _ => nofun⟩

theorem IsPlace.of_directory (hask : canAsk l = true) (h : t.entry? l = some .directory) : t.IsPlace l :=
  ⟨hask, fun _ he => nomatch h.symm.trans he⟩

theorem isPlace_of_walk (ht : t.IsTree) (hp : t.IsPlace here) (h : t.walk canAsk links here todo = .ok l) :
    t.IsPlace l := by
  fun_induction FileTree.walk t canAsk links here todo with
  | case1 links here =>
    cases h
    exact hp
  | case3 links here s rest hfits hdirectory hdot ih => exact ih hp h
  | case4 links here rest hdirectory hfits hdot ih =>
    exact ih (.of_directory (canAsk_dropLast hp.asked) (ht.directory_dropLast hdirectory)) h
  | case8 here s rest hfits hdirectory hdot hup hlength target hlink links ih =>
    refine ih ?_ h
    split
    · exact t.isPlace_nil
    · exact hp
  | case9 links here s rest hfits hdirectory hdot hup hlength e hnolink hentry ih =>
    have hname : isName s = true := by simpa [isName, hup] using hdot
    have hask : canAsk (here ++ [s]) = true := by simpa [hname] using hfits
    exact ih ⟨hask, fun target he => hnolink target (Option.some_inj.1 (hentry.symm.trans he))⟩ h
  | case2 | case5 | case6 | case7 | case10 | case11 => cases h

theorem isPlace_of_resolve (ht : t.IsTree) (h : t.resolve p = .ok l) : t.IsPlace l := by
  rw [resolve] at h
  split at h
  · cases h
  · split at h
    · cases h
    · refine isPlace_of_walk ht ?_ h
      rw [start]
      split
      · exact t.isPlace_nil
      · rcases hsegments : p.segments with _ | ⟨s, rest⟩
        · exact absurd hsegments (by simpa [Path.segments] using Text.split_ne_nil '/' p.text.toList)
        · next hrelative =>
          rw [start, if_neg hrelative, hsegments] at h
          exact .of_directory ht.workdir (directory_of_walk h)

theorem IsPlace.canonical_and_find (ht : t.IsTree) (hp : t.IsPlace l) (he : t.entry? l = some e) :
    t.canonical l.toPath = .ok l.toPath ∧ t.find l.toPath = .ok e := by
  have hlink : ∀ target, e ≠ .link target := fun target hl => hp.notLink target (hl ▸ he)
  have hslash : ∀ s ∈ l, '/' ∉ s.toList := fun s hs => (ht.isEntryName he hs).2.1
  have hnul : ∀ s ∈ l, '\x00' ∉ s.toList := fun s hs => (ht.isEntryName he hs).2.2.1
  have hwalk : ∀ fits, (∀ m, m ≠ [] → m <+: l → fits m = true) →
      t.walk fits linkLimit [] l.toPath.segments = .ok l := by
    intro fits hfits
    rw [walk_segments_toPath hslash]
    exact walk_names ht [] he hlink hfits
  refine FileTree.canonical_and_find
    ⟨isAbsolute_toPath l, isEmpty_toPath l, nul_notMem_toPath hnul, by simpa [canAsk] using hp.asked⟩ (hwalk canAsk ?_)
    (hwalk (fun _ => true) fun _ _ _ => rfl) he
  rintro m - ⟨rest, rfl⟩
  exact canAsk_of_append hp.asked

/-- A canonical path is absolute, its own canonical path, and names what it was made for. -/
theorem of_canonical (ht : t.IsTree) (h : t.canonical p = .ok q) :
    q.isAbsolute = true ∧ t.canonical q = .ok q ∧
      ∃ l e, q = l.toPath ∧ t.resolve p = .ok l ∧ t.entry? l = some e ∧ t.find q = .ok e := by
  obtain ⟨l, e, hl, he, rfl⟩ := canonical_eq_ok_iff.1 h
  obtain ⟨hcanonical, hfind⟩ := (isPlace_of_resolve ht hl).canonical_and_find ht he
  exact ⟨isAbsolute_toPath l, hcanonical, l, e, rfl, hl, he, hfind⟩

/-! A path of the system and its canonical path. -/

theorem find_eq_ok_iff : t.find p = .ok e ↔ ∃ l, t.reach p = .ok l ∧ t.entry? l = some e := by
  unfold find
  cases t.reach p with
  | error cause => simp [bind, Except.bind]
  | ok l => cases hentry : t.entry? l <;> simp [bind, Except.bind, hentry]

theorem isFile_iff : t.isFile p = true ↔ ∃ content, t.find p = .ok (.file content) := by
  unfold isFile
  split
  · next content h => simp [h]
  · next h => simpa using fun content hc => h content hc

theorem parts_toPath (hl : l ≠ []) (h : ∀ s ∈ l, '/' ∉ s.toList) : l.toPath.parts = ([""], l) := by
  rw [Path.parts, segments_toPath hl h]
  simp [isEmpty_toPath]

theorem component?_of_isName (h : isName s = true) : Path.component? s = some (.name s) := by
  obtain ⟨hempty, hdot, hup⟩ := isName_iff.1 h
  simp [Path.component?, hempty, hdot, hup]

theorem components_toPath_of_notMem (h : ∀ s ∈ l, '/' ∉ s.toList) :
    l.toPath.components = .root :: l.filterMap Path.component? := by
  by_cases hl : l = []
  · rw [hl]
    decide
  · rw [Path.components, parts_toPath hl h]
    rfl

def linked : FileTree where
  entries := [(["ws"], .directory), (["ws", "round"], .link "."), (["ws", "app"], .link "../lib/"),
    (["lib"], .directory), (["lib", "Cargo.toml"], .file []), (["lib", "main.rs"], .file [])]
  workdir := []

theorem isTree_linked : linked.IsTree :=
  ⟨by decide, by decide, by decide⟩

theorem walk_linked (hws : fits ["ws"] = true) (happ : fits ["ws", "app"] = true) (hlib : fits ["lib"] = true) :
    linked.walk fits (links + 1) [] (["", "ws", "app"] ++ todo) = linked.walk fits links ["lib"] todo := by
  have hnames : ¬255 < "ws".utf8ByteSize ∧ ¬255 < "app".utf8ByteSize ∧ ¬255 < "lib".utf8ByteSize := by decide
  have htarget : (⟨"../lib/"⟩ : Path).segments = ["..", "lib", ""] := by decide
  have hrelative : (⟨"../lib/"⟩ : Path).isAbsolute = false := by decide
  simp [walk, isName, entry?, at?, nameLimit, linked, hws, happ, hlib, hnames, htarget, hrelative, List.lookup_cons]

theorem canonical_and_find_linked
    (hp : p.isAbsolute = true ∧ p.isEmpty = false ∧ p.text.toList.contains '\x00' = false ∧
      p.text.utf8ByteSize < pathLimit)
    (hsegments : p.segments = ["", "ws", "app"] ++ l) (he : linked.entry? ("lib" :: l) = some e)
    (hlink : ∀ target, e ≠ .link target) (hask : canAsk ("lib" :: l) = true) :
    linked.canonical p = .ok (Location.toPath ("lib" :: l)) ∧ linked.find p = .ok e := by
  have hwalk : ∀ fits : Location → Bool, fits ["ws"] = true → fits ["ws", "app"] = true → fits ["lib"] = true →
      (∀ m, m ≠ [] → m <+: l → fits ("lib" :: m) = true) →
      linked.walk fits linkLimit [] p.segments = .ok ("lib" :: l) := by
    intro fits hws happ hlib hfits
    rw [hsegments, linkLimit, walk_linked hws happ hlib]
    exact walk_names isTree_linked ["lib"] he hlink hfits
  refine canonical_and_find hp (hwalk canAsk ?_ ?_ ?_ ?_) (hwalk (fun _ => true) rfl rfl rfl fun _ _ _ => rfl) he
  · decide
  · decide
  · decide
  · rintro m - ⟨rest, rfl⟩
    exact canAsk_of_append (l := "lib" :: m) hask

theorem app_linked : linked.canonical ⟨"/ws/app"⟩ = .ok ⟨"/lib"⟩ ∧ linked.isDirectory ⟨"/ws/app"⟩ = true := by
  obtain ⟨hcanonical, hfind⟩ := canonical_and_find_linked (p := ⟨"/ws/app"⟩) (l := []) (e := .directory)
    (by decide) (by decide) (by decide) (fun _ => nofun) (by decide)
  exact ⟨hcanonical.trans (by decide), by rw [isDirectory, hfind]⟩

end FileTree
end CrateYard
