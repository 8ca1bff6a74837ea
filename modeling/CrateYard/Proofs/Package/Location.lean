import CrateYard.Package.Source

/-! What a source text says of a package. The text before the first plus sign is the scheme. Behind the scheme `git` the
commit is what follows the first `#`, and the reference what follows the first `?` before it; so the parts, put together
with their marks, are the text, and there is one way to take it apart. -/

namespace CrateYard

namespace Source

/-- The text before the first plus sign, and what is behind it. -/
def Schemed (scheme rest text : String) : Prop :=
  text = scheme ++ "+" ++ rest ∧ '+' ∉ scheme.toList

/-- A part with the mark that it stands behind, or nothing. -/
def marked (mark : String) : Option String → String
  | some part => mark ++ part
  | none => ""

def gitText (url : String) (reference commit : Option String) : String :=
  "git+" ++ url ++ marked "?" reference ++ marked "#" commit

/-- The parts do not hold the mark of what follows them. -/
structure Parted (url : String) (reference : Option String) : Prop where
  url_commit : '#' ∉ url.toList
  url_reference : '?' ∉ url.toList
  reference_commit : ∀ r ∈ reference, '#' ∉ r.toList

variable {text scheme rest url : String} {reference commit : Option String}

/-! Cutting. -/

theorem cut_eq_iff {sep : Char} {text before : List Char} {after : Option (List Char)} :
    cut sep text = (before, after) ↔ text = before ++ (after.elim [] (sep :: ·)) ∧ sep ∉ before := by
  unfold cut
  cases hsplit : Text.splitOnce sep text with
  | none =>
    have hfree := Text.splitOnce_eq_none_iff.1 hsplit
    constructor
    · rintro ⟨⟩
      exact ⟨(List.append_nil _).symm, hfree⟩
    · rintro ⟨rfl, -⟩
      cases after with
      | none => simp
      | some after => simp at hfree
  | some parts =>
    obtain ⟨first, second⟩ := parts
    obtain ⟨htext, hfree⟩ := Text.splitOnce_eq_some hsplit
    constructor
    · rintro ⟨⟩
      exact ⟨htext, hfree⟩
    · rintro ⟨h, hbefore⟩
      cases after with
      | none =>
        rw [Option.elim_none, List.append_nil] at h
        rw [htext] at h
        exact absurd (by rw [← h]; simp) hbefore
      | some after =>
        rw [h, Option.elim_some, Text.splitOnce_append_cons hbefore] at hsplit
        cases hsplit
        rfl

theorem toList_marked (mark : Char) (part : Option String) :
    (marked (String.singleton mark) part).toList = (part.map String.toList).elim [] (mark :: ·) := by
  cases part <;> simp [marked]

theorem map_ofList_eq_iff {part : Option (List Char)} {s : Option String} :
    part.map String.ofList = s ↔ part = s.map String.toList := by
  cases part <;> cases s <;> simp [← String.toList_inj]

theorem ofGit_eq_iff_cut {location : List Char} :
    ofGit location = .git url reference commit ↔ ∃ rest, cut '#' location = (rest, commit.map String.toList) ∧
      cut '?' rest = (url.toList, reference.map String.toList) := by
  have hurl : ∀ first : List Char, String.ofList first = url ↔ first = url.toList := fun first => by
    rw [← String.toList_inj, String.toList_ofList]
  unfold ofGit
  simp only [Source.git.injEq, map_ofList_eq_iff, hurl]
  constructor
  · rintro ⟨hfirst, hsecond, hafter⟩
    exact ⟨_, Prod.ext rfl hafter, Prod.ext hfirst hsecond⟩
  · rintro ⟨rest, hrest, hparts⟩
    simp [hrest, hparts]

/-- A git location is read as its parts, and only as these. -/
theorem ofGit_eq_iff {location : List Char} :
    ofGit location = .git url reference commit ↔
      location = url.toList ++ (marked "?" reference).toList ++ (marked "#" commit).toList ∧
        Parted url reference := by
  have hreference : (marked "?" reference).toList = _ := toList_marked '?' reference
  have hcommit : (marked "#" commit).toList = _ := toList_marked '#' commit
  simp only [ofGit_eq_iff_cut, cut_eq_iff, hreference, hcommit]
  constructor
  · rintro ⟨rest, ⟨rfl, hmark⟩, rfl, hurl⟩
    rw [List.mem_append, not_or] at hmark
    refine ⟨rfl, hmark.1, hurl, fun r hr => ?_⟩
    obtain rfl : reference = some r := hr
    exact fun h => hmark.2 (List.mem_cons_of_mem _ h)
  · rintro ⟨rfl, hparted⟩
    refine ⟨_, ⟨rfl, ?_⟩, rfl, hparted.url_reference⟩
    rw [List.mem_append, not_or]
    refine ⟨hparted.url_commit, ?_⟩
    cases reference with
    | none => exact List.not_mem_nil
    | some r => simpa using hparted.reference_commit r rfl

/-! Schemes. -/

theorem schemed_iff : Schemed scheme rest text ↔ Text.splitOnce '+' text.toList = some (scheme.toList, rest.toList) := by
  constructor
  · rintro ⟨rfl, hfree⟩
    simpa using Text.splitOnce_append_cons hfree rest.toList
  · intro h
    obtain ⟨htext, hfree⟩ := Text.splitOnce_eq_some h
    exact ⟨by rw [← String.toList_inj, htext]; simp, hfree⟩

theorem Schemed.unique {scheme' rest' : String} (h : Schemed scheme rest text) (h' : Schemed scheme' rest' text) :
    scheme = scheme' ∧ rest = rest' := by
  have hsame := (schemed_iff.1 h).symm.trans (schemed_iff.1 h')
  simpa [String.toList_inj] using hsame

theorem exists_schemed (h : '+' ∈ text.toList) : ∃ scheme rest, Schemed scheme rest text := by
  cases hsplit : Text.splitOnce '+' text.toList with
  | none => exact absurd h (Text.splitOnce_eq_none_iff.1 hsplit)
  | some parts => exact ⟨.ofList parts.1, .ofList parts.2, schemed_iff.2 (by simp [hsplit])⟩

theorem gitText_eq_iff : text = gitText url reference commit ↔ ∃ rest, Schemed "git" rest text ∧
    rest.toList = url.toList ++ (marked "?" reference).toList ++ (marked "#" commit).toList := by
  constructor
  · rintro rfl
    refine ⟨url ++ marked "?" reference ++ marked "#" commit, ⟨?_, by decide⟩, by simp⟩
    rw [← String.toList_inj]
    simp [gitText]
  · rintro ⟨rest, ⟨rfl, -⟩, hrest⟩
    rw [← String.toList_inj]
    simp [gitText, hrest]

theorem ofText_of_no_scheme (h : '+' ∉ text.toList) : ofText text = .other text := by
  rw [ofText, Text.splitOnce_eq_none_iff.2 h]

theorem ofText_cases (text : String) :
    (∃ scheme rest, Schemed scheme rest text) ∨
      ofText text = .other text ∧ ∀ scheme rest, ¬ Schemed scheme rest text := by
  by_cases h : '+' ∈ text.toList
  · exact .inl (exists_schemed h)
  · refine .inr ⟨ofText_of_no_scheme h, ?_⟩
    rintro scheme rest ⟨rfl, -⟩
    simp at h

theorem kind_of_schemed (h : Schemed scheme rest text) :
    (∀ url reference commit, ofText text = .git url reference commit ↔
      scheme = "git" ∧ ofGit rest.toList = .git url reference commit) ∧
    (∀ url, ofText text = .registry url ↔
      (scheme = "registry" ∧ rest ≠ publicIndex ∨ scheme = "sparse" ∧ rest ≠ publicSparse) ∧ rest = url) ∧
    (∀ other, ofText text = .other other ↔
      scheme ∉ ["registry", "sparse", "git", "path"] ∧ text = other) := by
  rw [ofText, schemed_iff.1 h]
  simp only [String.ofList_toList]
  split
  · split <;> simp [*, eq_comm]
  · split <;> simp [*, eq_comm]
  · simp [ofGit]
  · simp
  · next hregistry hsparse hgit hpath =>
    have hnone : scheme ≠ "registry" ∧ scheme ≠ "sparse" ∧ scheme ≠ "git" ∧ scheme ≠ "path" :=
      ⟨hregistry, hsparse, hgit, hpath⟩
    simp [hnone]

theorem ofText_eq_git_iff : ofText text = .git url reference commit ↔
    text = gitText url reference commit ∧ Parted url reference := by
  rw [gitText_eq_iff]
  rcases ofText_cases text with ⟨scheme, rest, h⟩ | ⟨hother, hnone⟩
  · obtain ⟨hgit, -, -⟩ := kind_of_schemed h
    rw [hgit, ofGit_eq_iff]
    constructor
    · rintro ⟨rfl, hrest, hparted⟩
      exact ⟨⟨rest, h, hrest⟩, hparted⟩
    · rintro ⟨⟨rest', h', hrest⟩, hparted⟩
      obtain ⟨rfl, rfl⟩ := h.unique h'
      exact ⟨rfl, hrest, hparted⟩
  · simp [hother, hnone]

theorem exists_ofText_eq_git_iff :
    (∃ url reference commit, ofText text = .git url reference commit) ↔ ∃ rest, Schemed "git" rest text := by
  rcases ofText_cases text with ⟨scheme, rest, h⟩ | ⟨hother, hnone⟩
  · obtain ⟨hgit, -, -⟩ := kind_of_schemed h
    simp only [hgit]
    constructor
    · rintro ⟨-, -, -, rfl, -⟩
      exact ⟨rest, h⟩
    · rintro ⟨rest', h'⟩
      exact ⟨_, _, _, (h.unique h').1, rfl⟩
  · simp [hother, hnone]

theorem ofText_eq_other_iff {other : String} : ofText text = .other other ↔
    text = other ∧ ∀ scheme ∈ ["registry", "sparse", "git", "path"], ∀ rest, ¬ Schemed scheme rest text := by
  rcases ofText_cases text with ⟨scheme, rest, h⟩ | ⟨hother, hnone⟩
  · obtain ⟨-, -, hkept⟩ := kind_of_schemed h
    rw [hkept, and_comm]
    refine and_congr_right fun _ => ⟨fun hnone s hs rest' h' => ?_, fun hnone hs => hnone scheme hs rest h⟩
    exact hnone ((h.unique h').1 ▸ hs)
  · simp [hother, hnone]

theorem ofText_eq_registry_iff : ofText text = .registry url ↔
    Schemed "registry" url text ∧ url ≠ publicIndex ∨ Schemed "sparse" url text ∧ url ≠ publicSparse := by
  rcases ofText_cases text with ⟨scheme, rest, h⟩ | ⟨hother, hnone⟩
  · obtain ⟨-, hregistry, -⟩ := kind_of_schemed h
    rw [hregistry]
    constructor
    · rintro ⟨⟨rfl, hrest⟩ | ⟨rfl, hrest⟩, rfl⟩
      · exact .inl ⟨h, hrest⟩
      · exact .inr ⟨h, hrest⟩
    · rintro (⟨h', hurl⟩ | ⟨h', hurl⟩) <;> obtain ⟨rfl, rfl⟩ := h.unique h'
      · exact ⟨.inl ⟨rfl, hurl⟩, rfl⟩
      · exact ⟨.inr ⟨rfl, hurl⟩, rfl⟩
  · simp [hother, hnone]

/-- A source text is a git source exactly if the text before its first plus sign is `git`. Its parts with their marks
are then the text, none of them holds the mark of a part behind it, and every text that is put together of such parts is
read as these. A source of no kind keeps the whole text, and the place of a registry is what follows the first plus
sign behind `registry` or `sparse`, if that is not the public index. -/
theorem ofDocument_parts (text : String) :
    ((∃ url reference commit, ofDocument (some text) = .git url reference commit) ↔
      ∃ rest, Schemed "git" rest text) ∧
    (∀ url reference commit, ofDocument (some text) = .git url reference commit ↔
      text = gitText url reference commit ∧ Parted url reference) ∧
    (∀ other, ofDocument (some text) = .other other ↔
      text = other ∧ ∀ scheme ∈ ["registry", "sparse", "git", "path"], ∀ rest, ¬ Schemed scheme rest text) ∧
    ∀ url, ofDocument (some text) = .registry url ↔
      Schemed "registry" url text ∧ url ≠ publicIndex ∨ Schemed "sparse" url text ∧ url ≠ publicSparse := by
  simp only [ofDocument]
  exact ⟨exists_ofText_eq_git_iff, fun _ _ _ => ofText_eq_git_iff, fun _ => ofText_eq_other_iff,
    fun _ => ofText_eq_registry_iff⟩

end Source

end CrateYard
