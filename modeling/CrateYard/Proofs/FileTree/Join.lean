import CrateYard.Proofs.FileTree.Canonical

/-! What lies in a directory by its name. A path and a name below it lead where the path leads and one step on. So what
is found in this way is found in a directory. -/

namespace CrateYard

namespace Path

variable {dir : Path} {name : String}

theorem isAbsolute_of_notMem (h : '/' ∉ name.toList) : (⟨name⟩ : Path).isAbsolute = false := by
  rw [isAbsolute, decide_eq_false_iff_not]
  exact fun hhead => h (List.mem_of_head? hhead)

theorem text_join (dir : Path) (hname : '/' ∉ name.toList) : ∃ rest, (dir.join ⟨name⟩).text = dir.text ++ rest := by
  rw [join, if_neg (by simp [isAbsolute_of_notMem hname])]
  split
  · exact ⟨name, rfl⟩
  · exact ⟨"/" ++ name, String.append_assoc⟩

/-- A name is joined to a path by one slash, which may be the last one of the path. -/
theorem segments_join (hname : '/' ∉ name.toList) (hdir : dir.isEmpty = false) :
    ∃ front, (dir.segments = front ∨ dir.segments = front ++ [""]) ∧ (dir.join ⟨name⟩).segments = front ++ [name] := by
  rw [join, if_neg (by simp [isAbsolute_of_notMem hname])]
  by_cases hslash : dir.text.toList.getLast? = some '/'
  · obtain ⟨front, hfront⟩ := List.getLast?_eq_some_iff.1 hslash
    refine ⟨(⟨String.ofList front⟩ : Path).segments, .inr ?_, ?_⟩
    · simp [segments, hfront, Text.split_append_cons, Text.split]
    · rw [if_pos (by simp [hslash])]
      simp [segments, hfront, Text.split_append_cons, Text.split_of_notMem hname]
  · refine ⟨dir.segments, .inl rfl, ?_⟩
    rw [if_neg (by simp [hslash, hdir])]
    simp [segments, Text.split_append_cons, Text.split_of_notMem hname]

end Path

namespace FileTree

variable {t : FileTree} {fits : Location → Bool} {dir : Path} {name : String}

/-- A walk along more segments goes on where a walk along the first ones ends. -/
theorem walk_append (t : FileTree) (fits : Location → Bool) (links : Nat) (here : Location) (todo : List String) :
    (∃ l left, t.walk fits links here todo = .ok l ∧
      ∀ more, t.walk fits links here (todo ++ more) = t.walk fits left l more) ∨
    ∃ cause, t.walk fits links here todo = .error cause ∧
      ∀ more, t.walk fits links here (todo ++ more) = .error cause := by
  fun_induction FileTree.walk t fits links here todo with
  | case1 links here => exact .inl ⟨here, links, rfl, fun more => rfl⟩
  | case3 links here s rest hfits hdirectory hdot ih =>
    simpa [walk.eq_def _ _ _ _ (s :: _), hfits, hdirectory, hdot] using ih
  | case4 links here rest hdirectory hfits hdot ih =>
    simpa [walk.eq_def _ _ _ _ (".." :: _), hfits, hdirectory, hdot] using ih
  | case8 here s rest hfits hdirectory hdot hup hlength target hlink links ih =>
    simpa [walk.eq_def _ _ _ _ (s :: _), hfits, hdirectory, hdot, hup, hlength, hlink] using ih
  | case9 links here s rest hfits hdirectory hdot hup hlength e hnolink hentry ih =>
    simpa [walk.eq_def _ _ _ _ (s :: _), hfits, hdirectory, hdot, hup, hlength, hentry] using ih
  | case2 | case5 | case6 | case7 | case10 | case11 =>
    right
    refine ⟨_, rfl, fun more => ?_⟩
    rw [List.cons_append, walk]
    simp [*]

theorem start_join (hname : '/' ∉ name.toList) (hdir : dir.isEmpty = false) :
    t.start (dir.join ⟨name⟩) = t.start dir := by
  obtain ⟨rest, htext⟩ := Path.text_join dir hname
  have hne : dir.text.toList ≠ [] := by simpa [Path.isEmpty] using hdir
  rw [start, start, Path.isAbsolute, Path.isAbsolute, htext, String.toList_append, List.head?_append_of_ne_nil _ hne]

theorem reach_of_reach_join {l : Location} (hname : '/' ∉ name.toList) (hdir : dir.isEmpty = false)
    (h : t.reach (dir.join ⟨name⟩) = .ok l) : ∃ m, t.reach dir = .ok m ∧ t.entry? m = some .directory := by
  obtain ⟨rest, htext⟩ := Path.text_join dir hname
  obtain ⟨front, hfront, hsegments⟩ := Path.segments_join hname hdir
  rw [reach] at h
  split at h
  · cases h
  · next hnul =>
    split at h
    · cases h
    · split at h
      · next hlength =>
        rw [htext, String.utf8ByteSize_append] at hlength
        rw [follow, start_join hname hdir, hsegments] at h
        have hnul' : ¬dir.text.toList.contains '\x00' = true := by
          rw [htext, String.toList_append] at hnul
          simp only [List.contains_eq_mem, List.mem_append, decide_eq_true_eq, not_or] at hnul ⊢
          exact hnul.1
        rw [reach, if_neg hnul', hdir, if_neg Bool.false_ne_true, if_pos (by omega)]
        rcases t.walk_append (fun _ => true) linkLimit (t.start dir) front with
          ⟨m, left, hwalk, hmore⟩ | ⟨cause, -, hmore⟩
        · have hdirectory : t.entry? m = some .directory := directory_of_walk ((hmore [name]).symm.trans h)
          refine ⟨m, ?_, hdirectory⟩
          rcases hfront with hfront | hfront
          · rw [follow, hfront, hwalk]
          · rw [follow, hfront, hmore [""], walk]
            simp [isName, hdirectory, walk]
        · cases (hmore [name]).symm.trans h
      · cases h

theorem isDirectory_of_isFile_join (hname : '/' ∉ name.toList) (hdir : dir.isEmpty = false)
    (h : t.isFile (dir.join ⟨name⟩) = true) : t.isDirectory dir = true := by
  obtain ⟨content, hfind⟩ := isFile_iff.1 h
  obtain ⟨l, hreach, -⟩ := find_eq_ok_iff.1 hfind
  obtain ⟨m, hm, hdirectory⟩ := reach_of_reach_join hname hdir hreach
  rw [isDirectory, find_eq_ok_iff.2 ⟨m, hm, hdirectory⟩]

end FileTree

end CrateYard
