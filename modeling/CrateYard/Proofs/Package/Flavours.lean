import CrateYard.Package.TargetKind

/-! How targets are classified. A kind names at most one flavour of library by its text, and a target counts as a
library with all the flavours that its kinds name. What is no library stands alone in its list, and neither the order of
the kinds nor that of the crate types matters. -/

namespace CrateYard

namespace LibKind

/-- The flavour that a text stands for: a listed flavour has a text of its own, and any other text that ends in `lib`
names an unknown one. -/
inductive Names : String → LibKind → Prop
  | listed {k : LibKind} (h : k ≠ .unknown) : Names k.text k
  | other {kind : String} (hend : "lib".toList <:+ kind.toList) (hfree : ∀ k : LibKind, k ≠ .unknown → k.text ≠ kind) :
      Names kind .unknown

/-- A kind that makes a target a library. -/
def IsLibrary (kind : String) : Prop :=
  kind = "proc-macro" ∨ "lib".toList <:+ kind.toList

instance (kind : String) : Decidable (IsLibrary kind) :=
  inferInstanceAs (Decidable (_ ∨ _))

theorem mem_all (k : LibKind) : k ∈ all := by
  cases k <;> decide

variable {kind : String} {k : LibKind}

theorem ofKind?_eq_some_iff : ofKind? kind = some k ↔ Names kind k := by
  constructor
  · intro h
    rw [ofKind?] at h
    split at h
    · next k' hfind =>
      obtain ⟨htext, hlisted⟩ : k'.text = kind ∧ k' ≠ .unknown := by simpa using List.find?_some hfind
      cases h
      exact htext ▸ .listed hlisted
    · next hnone =>
      split at h
      · next hend =>
        cases h
        refine .other (List.isSuffixOf_iff_suffix.1 hend) fun k hk htext => ?_
        simpa [htext, hk] using List.find?_eq_none.1 hnone k (mem_all k)
      · cases h
  · rintro (hlisted | ⟨hend, hfree⟩)
    · cases k with
      | unknown => exact absurd rfl hlisted
      | lib | rlib | dylib | cdylib | staticlib | procMacro => decide
    · have hnone : (all.find? fun k => k.text = kind && k ≠ .unknown) = none := by
        rw [List.find?_eq_none]
        intro k _
        by_cases hk : k = .unknown
        · simp [hk]
        · simp [hfree k hk]
      rw [ofKind?, hnone]
      exact if_pos (List.isSuffixOf_iff_suffix.2 hend)

theorem exists_names_iff : (∃ k, Names kind k) ↔ IsLibrary kind := by
  constructor
  · rintro ⟨k, hlisted | ⟨hend, -⟩⟩
    · cases k with
      | unknown => exact absurd rfl hlisted
      | procMacro => exact .inl rfl
      | lib | rlib | dylib | cdylib | staticlib => exact .inr (by decide)
    · exact .inr hend
  · rintro (rfl | hend)
    · exact ⟨.procMacro, .listed (k := .procMacro) nofun⟩
    · by_cases hlisted : ∃ k : LibKind, k ≠ .unknown ∧ k.text = kind
      · obtain ⟨k, hk, rfl⟩ := hlisted
        exact ⟨k, .listed hk⟩
      · exact ⟨.unknown, .other hend fun k hk htext => hlisted ⟨k, hk, htext⟩⟩

end LibKind

namespace LibKinds

variable {kinds kinds' : List String} {s : LibKinds} {k : LibKind}

theorem contains_ofKinds : (ofKinds kinds).contains k = true ↔ ∃ kind ∈ kinds, LibKind.Names kind k := by
  simp [ofKinds, contains_ofList, LibKind.ofKind?_eq_some_iff]

theorem eq_ofKinds_iff : ofKinds kinds = s ↔ ∀ k, s.contains k = true ↔ ∃ kind ∈ kinds, LibKind.Names kind k := by
  constructor
  · rintro rfl k
    exact contains_ofKinds
  · intro h
    exact ext_contains fun k => Bool.eq_iff_iff.2 (contains_ofKinds.trans (h k).symm)

theorem ofKinds_perm (h : kinds.Perm kinds') : ofKinds kinds = ofKinds kinds' := by
  refine eq_ofKinds_iff.2 fun k => ?_
  simp only [contains_ofKinds, h.mem_iff]

theorem isEmpty_eq_false_iff : s.isEmpty = false ↔ ∃ k, s.contains k = true := by
  simp [isEmpty, toList, LibKind.mem_all]

theorem isEmpty_ofKinds : (ofKinds kinds).isEmpty = false ↔ ∃ kind ∈ kinds, LibKind.IsLibrary kind := by
  simp only [isEmpty_eq_false_iff, contains_ofKinds, ← LibKind.exists_names_iff]
  constructor
  · rintro ⟨k, kind, hmem, hnames⟩
    exact ⟨kind, hmem, k, hnames⟩
  · rintro ⟨kind, hmem, k, hnames⟩
    exact ⟨k, kind, hmem, hnames⟩

end LibKinds

namespace TargetKind

variable {kinds kinds' crateTypes crateTypes' : List String} {s : LibKinds}

/-- The kinds that count as they are written where they stand alone. -/
def wellKnown : List String := ["bin", "test", "bench", "example"]

theorem not_isLibrary_of_wellKnown : ∀ kind ∈ wellKnown, ¬ LibKind.IsLibrary kind := by
  decide

theorem ofNames_of_not_alone (h : ∀ kind ∈ wellKnown, kinds ≠ [kind]) :
    ofNames kinds crateTypes = ofLibraries kinds := by
  simp only [wellKnown, List.forall_mem_cons] at h
  obtain ⟨hbin, htest, hbench, hexample, -⟩ := h
  rw [ofNames] <;> assumption

theorem ofLibraries_eq_lib_iff : ofLibraries kinds = .lib s ↔
    (∃ kind ∈ kinds, LibKind.IsLibrary kind) ∧ LibKinds.ofKinds kinds = s := by
  rw [ofLibraries, ← LibKinds.isEmpty_ofKinds]
  cases (LibKinds.ofKinds kinds).isEmpty <;> simp

theorem ofLibraries_eq_unknown_iff : ofLibraries kinds = .unknown ↔ ∀ kind ∈ kinds, ¬ LibKind.IsLibrary kind := by
  have hnone : (∀ kind ∈ kinds, ¬ LibKind.IsLibrary kind) ↔ ¬ (LibKinds.ofKinds kinds).isEmpty = false := by
    rw [LibKinds.isEmpty_ofKinds]
    simp
  rw [ofLibraries, hnone]
  cases (LibKinds.ofKinds kinds).isEmpty <;> simp

theorem ofLibraries_perm (h : kinds.Perm kinds') : ofLibraries kinds = ofLibraries kinds' := by
  rw [ofLibraries, ofLibraries, LibKinds.ofKinds_perm h]

theorem ofNames_of_alone (kinds crateTypes : List String) :
    (ofNames kinds crateTypes = .bin ↔ kinds = ["bin"]) ∧
    (ofNames kinds crateTypes = .test ↔ kinds = ["test"]) ∧
    (ofNames kinds crateTypes = .bench ↔ kinds = ["bench"]) ∧
    (ofNames kinds crateTypes = .exampleBin ↔ kinds = ["example"] ∧ "bin" ∈ crateTypes) ∧
    ∀ s, ofNames kinds crateTypes = .exampleLib s ↔
      kinds = ["example"] ∧ "bin" ∉ crateTypes ∧ LibKinds.ofKinds crateTypes = s := by
  unfold ofNames
  split
  · simp
  · simp
  · simp
  · by_cases hbin : "bin" ∈ crateTypes <;> simp [hbin]
  · next hbin htest hbench hexample =>
    have hnot : kinds ≠ ["bin"] ∧ kinds ≠ ["test"] ∧ kinds ≠ ["bench"] ∧ kinds ≠ ["example"] :=
      ⟨hbin, htest, hbench, hexample⟩
    rw [ofLibraries]
    cases (LibKinds.ofKinds kinds).isEmpty <;> simp [hnot]

theorem ofNames_ne_of_wellKnown {kind : String} (h : kind ∈ wellKnown) (crateTypes : List String) :
    ofNames [kind] crateTypes ≠ .unknown ∧ ∀ s, ofNames [kind] crateTypes ≠ .lib s := by
  simp only [wellKnown, List.mem_cons, List.not_mem_nil, or_false] at h
  rcases h with rfl | rfl | rfl | rfl
  · simp [ofNames]
  · simp [ofNames]
  · simp [ofNames]
  · by_cases hbin : "bin" ∈ crateTypes <;> simp [ofNames, hbin]

/-- A kind that counts as it is written makes no library, so it takes none away where it stands alone. -/
theorem ofNames_eq_lib_iff : ofNames kinds crateTypes = .lib s ↔
    (∃ kind ∈ kinds, LibKind.IsLibrary kind) ∧ LibKinds.ofKinds kinds = s := by
  by_cases halone : ∃ kind ∈ wellKnown, kinds = [kind]
  · obtain ⟨kind, hknown, rfl⟩ := halone
    have hnone : ¬ ∃ k ∈ [kind], LibKind.IsLibrary k := by simpa using not_isLibrary_of_wellKnown kind hknown
    exact iff_of_false ((ofNames_ne_of_wellKnown hknown crateTypes).2 s) fun h => hnone h.1
  · rw [ofNames_of_not_alone fun kind hknown h => halone ⟨kind, hknown, h⟩]
    exact ofLibraries_eq_lib_iff

theorem ofNames_eq_unknown_iff : ofNames kinds crateTypes = .unknown ↔
    (∀ kind ∈ wellKnown, kinds ≠ [kind]) ∧ ∀ kind ∈ kinds, ¬ LibKind.IsLibrary kind := by
  by_cases halone : ∃ kind ∈ wellKnown, kinds = [kind]
  · obtain ⟨kind, hknown, rfl⟩ := halone
    exact iff_of_false (ofNames_ne_of_wellKnown hknown crateTypes).1 fun h => h.1 kind hknown rfl
  · have hnot : ∀ kind ∈ wellKnown, kinds ≠ [kind] := fun kind hknown h => halone ⟨kind, hknown, h⟩
    rw [ofNames_of_not_alone hnot, ofLibraries_eq_unknown_iff]
    exact ⟨fun h => ⟨hnot, h⟩, fun h => h.2⟩

theorem ofNames_perm (hkinds : kinds.Perm kinds') (htypes : crateTypes.Perm crateTypes') :
    ofNames kinds' crateTypes' = ofNames kinds crateTypes := by
  by_cases halone : ∃ kind ∈ wellKnown, kinds = [kind]
  · obtain ⟨kind, -, rfl⟩ := halone
    obtain rfl : [kind] = kinds' := List.singleton_perm.1 hkinds
    unfold ofNames
    rw [htypes.contains_eq, LibKinds.ofKinds_perm htypes]
  · have halone' : ¬ ∃ kind ∈ wellKnown, kinds' = [kind] := by
      rintro ⟨kind, hknown, rfl⟩
      exact halone ⟨kind, hknown, List.perm_singleton.1 hkinds⟩
    rw [ofNames_of_not_alone fun kind hknown h => halone ⟨kind, hknown, h⟩,
      ofNames_of_not_alone fun kind hknown h => halone' ⟨kind, hknown, h⟩, ofLibraries_perm hkinds]

/-- Targets are classified by the flavours that their kinds name, whatever the order of the kinds and of the crate
types. A target is a library exactly if one of its kinds makes it one, and then of all the flavours that its kinds name
and of no others, but of one at least. A binary, a test, a benchmark and an example each come of their kind standing
alone; an example is a binary if that is among its crate types, and else a library of the flavours that these name. All
else is unknown. -/
theorem classified_by_flavours (kinds crateTypes : List String) :
    (∀ kinds' crateTypes', kinds.Perm kinds' → crateTypes.Perm crateTypes' →
      ofNames kinds' crateTypes' = ofNames kinds crateTypes) ∧
    ((∃ s, ofNames kinds crateTypes = .lib s) ↔ ∃ kind ∈ kinds, LibKind.IsLibrary kind) ∧
    (∀ s, ofNames kinds crateTypes = .lib s →
      s.isEmpty = false ∧ ∀ k, s.contains k = true ↔ ∃ kind ∈ kinds, LibKind.Names kind k) ∧
    (ofNames kinds crateTypes = .bin ↔ kinds = ["bin"]) ∧
    (ofNames kinds crateTypes = .test ↔ kinds = ["test"]) ∧
    (ofNames kinds crateTypes = .bench ↔ kinds = ["bench"]) ∧
    (ofNames kinds crateTypes = .exampleBin ↔ kinds = ["example"] ∧ "bin" ∈ crateTypes) ∧
    (∀ s, ofNames kinds crateTypes = .exampleLib s ↔ kinds = ["example"] ∧ "bin" ∉ crateTypes ∧
      ∀ k, s.contains k = true ↔ ∃ crateType ∈ crateTypes, LibKind.Names crateType k) ∧
    (ofNames kinds crateTypes = .unknown ↔
      (∀ kind ∈ wellKnown, kinds ≠ [kind]) ∧ ∀ kind ∈ kinds, ¬ LibKind.IsLibrary kind) := by
  obtain ⟨hbin, htest, hbench, hexampleBin, hexampleLib⟩ := ofNames_of_alone kinds crateTypes
  refine ⟨fun _ _ => ofNames_perm, ?_, fun s hs => ?_, hbin, htest, hbench, hexampleBin, fun s => ?_,
    ofNames_eq_unknown_iff⟩
  · simp [ofNames_eq_lib_iff]
  · obtain ⟨hlibrary, hflavours⟩ := ofNames_eq_lib_iff.1 hs
    exact ⟨hflavours ▸ LibKinds.isEmpty_ofKinds.2 hlibrary, LibKinds.eq_ofKinds_iff.1 hflavours⟩
  · rw [hexampleLib, LibKinds.eq_ofKinds_iff]

/-- A listed kind, one that does not count beside others, and one of an unknown flavour. -/
theorem classified_by_flavours_mixed :
    ["rlib", "bin", "fancylib"].Perm ["fancylib", "rlib", "bin"] ∧ ["lib", "bin"].Perm ["bin", "lib"] ∧
    ofNames ["fancylib", "rlib", "bin"] ["bin", "lib"] = ofNames ["rlib", "bin", "fancylib"] ["lib", "bin"] ∧
    ∃ s, ofNames ["rlib", "bin", "fancylib"] ["lib", "bin"] = .lib s ∧ s.isEmpty = false ∧
      s.toList = [.rlib, .unknown] ∧
      ∀ k, s.contains k = true ↔ ∃ kind ∈ ["rlib", "bin", "fancylib"], LibKind.Names kind k := by
  have hkinds : ["rlib", "bin", "fancylib"].Perm ["fancylib", "rlib", "bin"] := by decide
  have htypes : ["lib", "bin"].Perm ["bin", "lib"] := by decide
  obtain ⟨hperm, -, hlib, -⟩ := classified_by_flavours ["rlib", "bin", "fancylib"] ["lib", "bin"]
  have hs : ofNames ["rlib", "bin", "fancylib"] ["lib", "bin"] = .lib (.ofList [.rlib, .unknown]) := by decide
  obtain ⟨hnonempty, hflavours⟩ := hlib _ hs
  exact ⟨hkinds, htypes, hperm _ _ hkinds htypes, _, hs, hnonempty, by decide, hflavours⟩

end TargetKind
end CrateYard
