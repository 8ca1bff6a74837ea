import CrateYard.Proofs.FileTree.Spelling
import CrateYard.Proofs.Refresh.Landing

/-! Attaching by what a path names. All spellings of a manifest that the system takes attach one project. A path that it
does not take attaches nothing, and nobody hears of it. -/

namespace CrateYard

namespace Registry

variable {r : Registry} {m : Path}

theorem isAttached_attach (r : Registry) (m : Path) : (r.attach m).registry.isAttached m = true := by
  rw [isAttached_iff, keys_attach]
  split
  · assumption
  · simp

theorem attach_of_isAttached (h : r.isAttached m = true) : r.attach m = r.quietly false :=
  if_pos h

theorem answer_attach (r : Registry) (m : Path) : (r.attach m).answer = !r.isAttached m := by
  unfold attach
  split <;> simp [quietly, announcing, *]

theorem length_filter_same (hkeys : r.keys.Nodup) (h : r.isAttached m = true) :
    (r.projects.filter fun p => p.manifest.same m).length = 1 := by
  have hcount : r.keys.count m.components = 1 := List.count_eq_one_of_mem hkeys (isAttached_iff.1 h)
  rw [keys, List.count, List.countP_map, List.countP_eq_length_filter] at hcount
  rw [← hcount]
  congr 2
  funext p
  rw [Bool.eq_iff_iff, Path.same_iff]
  exact beq_iff_eq.symm

end Registry

namespace Yard

/-- Attaching as a call: the yard after it, and its answer. -/
def attached (s : Yard) (p : Path) : Yard × Except PathError Bool :=
  match s.attach p with
  | .ok (s', answer) => (s', .ok answer)
  | .error cause => (s, .error cause)

variable {s : Yard} {p m : Path} {cause : PathError}

theorem attached_of_ok (h : s.tree.manifest p = .ok m) :
    s.attached p = (s.apply (s.registry.attach m), .ok !s.registry.isAttached m) := by
  rw [attached, attach, h, ← Registry.answer_attach]
  rfl

theorem attached_of_error (h : s.tree.manifest p = .error cause) : s.attached p = (s, .error cause) := by
  rw [attached, attach, h]
  rfl

theorem apply_quietly (s : Yard) (answer : α) : s.apply (s.registry.quietly answer) = s := by
  simp [apply, Registry.quietly, notify]

theorem attached_of_isAttached (h : s.tree.manifest p = .ok m) (hattached : s.registry.isAttached m = true) :
    s.attached p = (s, .ok false) := by
  rw [attached_of_ok h, Registry.attach_of_isAttached hattached, apply_quietly, hattached]
  rfl

/-- Of two paths with one manifest the second attaches nothing after the first, and the manifest has one project. -/
theorem attached_again {q : Path} (hkeys : s.registry.keys.Nodup) (hp : s.tree.manifest p = .ok m)
    (hq : s.tree.manifest q = .ok m) :
    ∃ s', s.attached p = (s', .ok !s.registry.isAttached m) ∧ s'.attached q = (s', .ok false) ∧
      (s'.registry.projects.filter fun x => x.manifest.same m).length = 1 := by
  have hattached : (s.apply (s.registry.attach m)).registry.isAttached m = true := s.registry.isAttached_attach m
  refine ⟨_, attached_of_ok hp, attached_of_isAttached hq hattached, Registry.length_filter_same ?_ hattached⟩
  exact Registry.nodup_keys_attach hkeys m

open FileTree in
/-- Whatever was attached, refreshed or lost before: spellings of one manifest whose ways the system takes have the file
at their end for their key, so of two the second attaches nothing. A spelling whose way is more than the system takes is
refused, and a call that fails changes nothing. -/
theorem attached_by_manifest {tree : FileTree} {toolchain : Toolchain} {acts : List Act} {d m : Location}
    {further met met' : List Location} {content : List UInt8} {p q : Path} {s : Yard}
    (hs : s = (Yard.start tree toolchain).afterAll acts)
    (hway : s.tree.Way d [Path.manifestName.text] further m) (hm : s.tree.entry? m = some (.file content))
    (hp : s.tree.Spelling d p met) (hq : s.tree.Spelling d q met') :
    (s.tree.WithinLimits (met ++ further) → s.tree.WithinLimits (met' ++ further) →
      s.tree.manifest p = .ok m.toPath ∧ s.tree.manifest q = .ok m.toPath ∧
        ∃ s', s.attached p = (s', .ok !s.registry.isAttached m.toPath) ∧ s'.attached q = (s', .ok false) ∧
          (s'.registry.projects.filter fun x => x.manifest.same m.toPath).length = 1) ∧
    (¬s.tree.WithinLimits (met ++ further) →
      s.attached p = (s, .error .nameTooLong) ∨ s.attached p = (s, .error .tooManyLinks)) ∧
    ∀ r cause, (s.attached r).2 = .error cause → (s.attached r).1 = s := by
  have hkeys : s.registry.keys.Nodup := by
    rw [hs]
    exact ((Sound.start tree toolchain).afterAll acts).keys
  obtain ⟨hok, herror⟩ := manifest_of_spelling hp hway hm
  obtain ⟨hok', -⟩ := manifest_of_spelling hq hway hm
  refine ⟨fun hlimits hlimits' => ?_, fun hlimits => ?_, fun r cause hcause => ?_⟩
  · exact ⟨hok hlimits, hok' hlimits', attached_again hkeys (hok hlimits) (hok' hlimits')⟩
  · exact (herror hlimits).imp attached_of_error attached_of_error
  · cases hr : s.tree.manifest r with
    | ok manifest =>
      rw [attached_of_ok hr] at hcause
      cases hcause
    | error cause => rw [attached_of_error hr]

/-- `/ws/app` is a link to `/lib`, where the manifest is. -/
theorem attached_by_manifest_linked :
    let s := (Yard.start FileTree.linked (tools 0 (.error (.unreadable "cargo" "")))).afterAll
      [.attach ⟨"/ws/Cargo.toml"⟩]
    ∃ s', s.attached ⟨"/ws/app"⟩ = (s', .ok true) ∧ s'.attached ⟨"/lib/Cargo.toml"⟩ = (s', .ok false) ∧
      (s'.registry.projects.filter fun x => x.manifest.same ⟨"/lib/Cargo.toml"⟩).length = 1 := by
  intro s
  have hentries : FileTree.linked.entry? ["ws"] = some .directory ∧
      FileTree.linked.entry? ["ws", "app"] = some (.link "../lib/") ∧ FileTree.linked.entry? ["lib"] = some .directory ∧
      FileTree.linked.entry? ["lib", "Cargo.toml"] = some (.file []) := by decide
  obtain ⟨hws, happ, hlib, hfile⟩ := hentries
  have hbelow : FileTree.linked.Way [] ["lib", ""] [["lib"]] ["lib"] :=
    .enter rfl rfl (by decide) hlib nofun (.stay hlib (.inl rfl) .done)
  have hlink : FileTree.linked.Names ⟨"/ws/app"⟩ [["ws"], ["ws", "app"], ["lib"]] ["lib"] := by
    refine ⟨by decide, by decide, ?_⟩
    have hsegments : (⟨"/ws/app"⟩ : Path).segments = ["", "ws", "app"] := by decide
    have htarget : (⟨"../lib/"⟩ : Path).segments ++ [] = ["..", "lib", ""] := by decide
    have hacross : FileTree.linked.Way ["ws"] ["app"] [["ws", "app"], ["lib"]] ["lib"] := by
      refine .link hws rfl (by decide) happ ?_
      rw [htarget]
      exact .up hws hbelow
    rw [hsegments]
    exact .stay rfl (.inl rfl) (.enter rfl rfl (by decide) hws nofun hacross)
  have hplain : FileTree.linked.Names ⟨"/lib/"⟩ [["lib"]] ["lib"] := by
    refine ⟨by decide, by decide, ?_⟩
    have hsegments : (⟨"/lib/"⟩ : Path).segments = ["", "lib", ""] := by decide
    rw [hsegments]
    exact .stay rfl (.inl rfl) hbelow
  have hway : FileTree.linked.Way ["lib"] [Path.manifestName.text] [["lib", "Cargo.toml"]] ["lib", "Cargo.toml"] :=
    .enter hlib (by decide) (by decide) hfile nofun .done
  obtain ⟨hsame, -, -⟩ := attached_by_manifest (s := s) rfl hway hfile (.directory hlink (by decide))
    (.manifest hplain)
  obtain ⟨-, -, hcalls⟩ := hsame ⟨by decide, by decide⟩ ⟨by decide, by decide⟩
  have hattached : (!s.registry.isAttached (Location.toPath ["lib", "Cargo.toml"])) = true := by decide
  have hpath : Location.toPath ["lib", "Cargo.toml"] = ⟨"/lib/Cargo.toml"⟩ := by decide
  have hjoin : (⟨"/lib/"⟩ : Path).join .manifestName = ⟨"/lib/Cargo.toml"⟩ := by decide
  rwa [hattached, hpath, hjoin] at hcalls

end Yard

namespace FileTree

/-! A directory that is also reached by going round in it: its manifest is a link, which may be one link too many. -/

def winding : FileTree where
  entries := [(["app"], .directory), (["app", "real.toml"], .file []), (["app", "Cargo.toml"], .link "real.toml"),
    (["app", "here"], .link ".")]
  workdir := []

/-- The path that goes round in the directory this often. -/
def round : Nat → Path
  | 0 => ⟨"/app"⟩
  | n + 1 => (round n).join ⟨"here"⟩

theorem length_round (n : Nat) : (round n).text.utf8ByteSize ≤ 4 + 5 * n := by
  induction n with
  | zero => decide
  | succ n ih =>
    have hpieces : "here".utf8ByteSize = 4 ∧ "/".utf8ByteSize = 1 := by decide
    rw [round, Path.join, if_neg (by decide)]
    split <;> simp only [String.utf8ByteSize_append, hpieces] <;> omega

theorem isTree_winding : winding.IsTree :=
  ⟨by decide, by decide, by decide⟩

theorem names_round (n : Nat) : winding.Names (round n) (["app"] :: List.replicate n ["app", "here"]) ["app"] := by
  have happ : winding.entry? ["app"] = some .directory := by decide
  induction n with
  | zero =>
    refine ⟨by decide, by decide, ?_⟩
    have hsegments : (⟨"/app"⟩ : Path).segments = ["", "app"] := by decide
    rw [round, hsegments]
    exact .stay rfl (.inl rfl) (.enter rfl rfl (by decide) happ nofun .done)
  | succ n ih =>
    have hhere : winding.entry? ["app", "here"] = some (.link ".") := by decide
    have htarget : (⟨"."⟩ : Path).segments ++ [] = ["."] := by decide
    have hround : winding.Way ["app"] ["here"] [["app", "here"]] ["app"] := by
      refine .link happ rfl (by decide) hhere ?_
      rw [htarget]
      exact .stay happ (.inr rfl) .done
    rw [List.replicate_succ', ← List.cons_append]
    exact ih.join (by decide) (by decide) hround

theorem links_round (n : Nat) : winding.links (["app"] :: List.replicate n ["app", "here"]) = n := by
  have happ : winding.isLink ["app"] = false := by decide
  have hhere : winding.isLink ["app", "here"] = true := by decide
  simp [links, List.countP_replicate, happ, hhere]

/-- A path that goes as often round as the system follows links leads to the directory, but not to its manifest. -/
theorem manifest_of_round :
    winding.IsTree ∧ winding.reach (round 0) = .ok ["app"] ∧ winding.reach (round linkLimit) = .ok ["app"] ∧
      winding.entry? ["app"] = some .directory ∧ winding.entry? ["app", "Cargo.toml"] = some (.link "real.toml") ∧
      winding.entry? ["app", "real.toml"] = some (.file []) ∧
      winding.manifest (round 0) = .ok ⟨"/app/real.toml"⟩ ∧ ∀ m, winding.manifest (round linkLimit) ≠ .ok m := by
  have hentries : winding.entry? ["app"] = some .directory ∧
      winding.entry? ["app", "Cargo.toml"] = some (.link "real.toml") ∧
      winding.entry? ["app", "real.toml"] = some (.file []) := by decide
  obtain ⟨happ, hlink, hfile⟩ := hentries
  have hlength : ∀ n ≤ linkLimit, (round n).text.utf8ByteSize < pathLimit := by
    intro n hn
    have hround := length_round n
    unfold linkLimit at hn
    unfold pathLimit
    omega
  have hreach : ∀ n ≤ linkLimit, winding.reach (round n) = .ok ["app"] := fun n hn =>
    (names_round n).reach_eq_ok_iff.2 ⟨⟨hlength n hn, (links_round n).trans_le hn⟩, rfl⟩
  have hway : winding.Way ["app"] [Path.manifestName.text] [["app", "Cargo.toml"], ["app", "real.toml"]]
      ["app", "real.toml"] := by
    have htarget : (⟨"real.toml"⟩ : Path).segments ++ [] = ["real.toml"] := by decide
    refine .link happ (by decide) (by decide) hlink ?_
    rw [htarget]
    exact .enter happ rfl (by decide) hfile nofun .done
  obtain ⟨hok, -⟩ := manifest_of_spelling (.directory (names_round 0) (hlength 0 (Nat.zero_le _))) hway hfile
  obtain ⟨-, herror⟩ :=
    manifest_of_spelling (.directory (names_round linkLimit) (hlength linkLimit (Nat.le_refl _))) hway hfile
  -- the link of the manifest comes on top of those of the path
  have hlimits : ¬winding.WithinLimits ((["app"] :: List.replicate linkLimit ["app", "here"]) ++
      [["app", "Cargo.toml"], ["app", "real.toml"]]) := by
    rintro ⟨-, hlinks⟩
    rw [links, List.countP_append, ← links, links_round, ← links] at hlinks
    have hmanifest : winding.links [["app", "Cargo.toml"], ["app", "real.toml"]] = 1 := by decide
    omega
  refine ⟨isTree_winding, hreach 0 (Nat.zero_le _), hreach linkLimit (Nat.le_refl _), happ, hlink, hfile, ?_, ?_⟩
  · have hpath : Location.toPath ["app", "real.toml"] = ⟨"/app/real.toml"⟩ := by decide
    rw [← hpath]
    exact hok ⟨by decide, by decide⟩
  · intro m hm
    rcases herror hlimits with hrefused | hrefused
    · cases hm.symm.trans hrefused
    · cases hm.symm.trans hrefused

end FileTree

end CrateYard
