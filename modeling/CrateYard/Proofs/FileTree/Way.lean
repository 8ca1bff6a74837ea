import CrateYard.Proofs.FileTree.Join

/-! Ways through a file tree. A way goes as a walk does, but nothing on it is too much: it may follow any number of
links, and what it meets may have any path. A walk comes to the end of a way if all that the way meets fits and the
links on it are allowed, and else it is stopped for one of these two reasons. -/

namespace CrateYard.FileTree

/-- The segments lead from one location to another; `met` are the places that are looked up by name on the way. -/
inductive Way (t : FileTree) : Location → List String → List Location → Location → Prop where
  | done {here : Location} : Way t here [] [] here
  | stay {here l : Location} {s : String} {rest : List String} {met : List Location}
      (hdirectory : t.entry? here = some .directory) (hs : s = "" ∨ s = ".") (h : Way t here rest met l) :
      Way t here (s :: rest) met l
  | up {here l : Location} {rest : List String} {met : List Location}
      (hdirectory : t.entry? here = some .directory) (h : Way t here.dropLast rest met l) :
      Way t here (".." :: rest) met l
  | enter {here l : Location} {s : String} {rest : List String} {met : List Location} {e : Entry}
      (hdirectory : t.entry? here = some .directory) (hs : isName s = true) (hlength : s.utf8ByteSize ≤ nameLimit)
      (he : t.entry? (here ++ [s]) = some e) (hlink : ∀ target, e ≠ .link target)
      (h : Way t (here ++ [s]) rest met l) :
      Way t here (s :: rest) ((here ++ [s]) :: met) l
  | link {here l : Location} {s target : String} {rest : List String} {met : List Location}
      (hdirectory : t.entry? here = some .directory) (hs : isName s = true) (hlength : s.utf8ByteSize ≤ nameLimit)
      (he : t.entry? (here ++ [s]) = some (.link target))
      (h : Way t (if (⟨target⟩ : Path).isAbsolute then [] else here) ((⟨target⟩ : Path).segments ++ rest) met l) :
      Way t here (s :: rest) ((here ++ [s]) :: met) l

def isLink (t : FileTree) (l : Location) : Bool :=
  match t.entry? l with
  | some (.link _) => true
  | _ => false

/-- How many of these places are links. -/
def links (t : FileTree) (met : List Location) : Nat :=
  met.countP t.isLink

variable {t : FileTree} {fits : Location → Bool} {n : Nat} {here m l : Location} {todo more : List String}
  {met further : List Location} {s : String} {e : Entry}

/-! The steps of a walk. -/

theorem walk_stay (hdirectory : t.entry? here = some .directory) (hs : s = "" ∨ s = ".") :
    t.walk fits n here (s :: todo) = t.walk fits n here todo := by
  have hname : isName s = false := by rcases hs with rfl | rfl <;> rfl
  rw [walk]
  simp [hname, hdirectory, hs]

theorem walk_up (hdirectory : t.entry? here = some .directory) :
    t.walk fits n here (".." :: todo) = t.walk fits n here.dropLast todo := by
  rw [walk]
  simp [isName, hdirectory]

theorem walk_of_not_fits (hs : isName s = true) (hfits : ¬fits (here ++ [s]) = true) :
    t.walk fits n here (s :: todo) = .error .nameTooLong := by
  rw [walk, if_pos]
  simp [hs, hfits]

theorem walk_name (hdirectory : t.entry? here = some .directory) (hs : isName s = true)
    (hlength : s.utf8ByteSize ≤ nameLimit) (hfits : fits (here ++ [s]) = true) (he : t.entry? (here ++ [s]) = some e) :
    t.walk fits n here (s :: todo) =
      match e with
      | .link target =>
        match n with
        | 0 => .error .tooManyLinks
        | n + 1 =>
          t.walk fits n (if (⟨target⟩ : Path).isAbsolute then [] else here) ((⟨target⟩ : Path).segments ++ todo)
      | _ => t.walk fits n (here ++ [s]) todo := by
  obtain ⟨hempty, hdot, hup⟩ := isName_iff.1 hs
  rw [walk]
  simp only [hs, hfits, hdirectory, hempty, hdot, hup, Nat.not_lt.2 hlength, he, Bool.not_true, Bool.and_false,
    Bool.false_eq_true, decide_false, Bool.or_self, if_false]
  cases e <;> rfl

/-! Ways and walks. -/

theorem Way.append (h : t.Way here todo met m) (h' : t.Way m more further l) :
    t.Way here (todo ++ more) (met ++ further) l := by
  induction h with
  | done => exact h'
  | stay hdirectory hs _ ih => exact .stay hdirectory hs (ih h')
  | up hdirectory _ ih => exact .up hdirectory (ih h')
  | enter hdirectory hs hlength he hlink _ ih => exact .enter hdirectory hs hlength he hlink (ih h')
  | link hdirectory hs hlength he _ ih =>
    have hrest := ih h'
    rw [List.append_assoc] at hrest
    exact .link hdirectory hs hlength he hrest

theorem Way.split (h : t.Way here (todo ++ more) met l) :
    ∃ m first second, t.Way here todo first m ∧ t.Way m more second l ∧ met = first ++ second := by
  generalize hall : todo ++ more = all at h
  induction h generalizing todo with
  | done =>
    obtain ⟨rfl, rfl⟩ := List.append_eq_nil_iff.1 hall
    exact ⟨_, [], [], .done, .done, rfl⟩
  | stay hdirectory hs h ih =>
    rcases List.append_eq_cons_iff.1 hall with ⟨rfl, rfl⟩ | ⟨todo, rfl, rfl⟩
    · exact ⟨_, [], _, .done, .stay hdirectory hs h, rfl⟩
    · obtain ⟨m, first, second, hfirst, hsecond, rfl⟩ := ih rfl
      exact ⟨m, first, second, .stay hdirectory hs hfirst, hsecond, rfl⟩
  | up hdirectory h ih =>
    rcases List.append_eq_cons_iff.1 hall with ⟨rfl, rfl⟩ | ⟨todo, rfl, rfl⟩
    · exact ⟨_, [], _, .done, .up hdirectory h, rfl⟩
    · obtain ⟨m, first, second, hfirst, hsecond, rfl⟩ := ih rfl
      exact ⟨m, first, second, .up hdirectory hfirst, hsecond, rfl⟩
  | enter hdirectory hs hlength he hlink h ih =>
    rcases List.append_eq_cons_iff.1 hall with ⟨rfl, rfl⟩ | ⟨todo, rfl, rfl⟩
    · exact ⟨_, [], _, .done, .enter hdirectory hs hlength he hlink h, rfl⟩
    · obtain ⟨m, first, second, hfirst, hsecond, rfl⟩ := ih rfl
      exact ⟨m, _ :: first, second, .enter hdirectory hs hlength he hlink hfirst, hsecond, rfl⟩
  | link hdirectory hs hlength he h ih =>
    rcases List.append_eq_cons_iff.1 hall with ⟨rfl, rfl⟩ | ⟨todo, rfl, rfl⟩
    · exact ⟨_, [], _, .done, .link hdirectory hs hlength he h, rfl⟩
    · obtain ⟨m, first, second, hfirst, hsecond, rfl⟩ := ih (List.append_assoc ..)
      exact ⟨m, _ :: first, second, .link hdirectory hs hlength he hfirst, hsecond, rfl⟩

theorem Way.eq_of_empty (h : t.Way here [""] met l) : met = [] ∧ here = l := by
  generalize htodo : [""] = todo at h
  cases h with
  | done => cases htodo
  | stay _ _ h =>
    obtain ⟨-, rfl⟩ := List.cons.inj htodo
    cases h
    exact ⟨rfl, rfl⟩
  | up => exact absurd (List.cons.inj htodo).1 (by decide)
  | enter _ hs | link _ hs =>
    rw [← (List.cons.inj htodo).1] at hs
    exact absurd hs (by decide)

theorem Way.directory_of_cons (h : t.Way here (s :: todo) met l) : t.entry? here = some .directory := by
  cases h <;> assumption

theorem links_cons_of_link {target : String} (he : t.entry? m = some (.link target)) :
    t.links (m :: met) = t.links met + 1 :=
  List.countP_cons_of_pos (by simp [isLink, he])

theorem links_cons_of_not_link (he : t.entry? m = some e) (hlink : ∀ target, e ≠ .link target) :
    t.links (m :: met) = t.links met := by
  apply List.countP_cons_of_neg
  cases e with
  | link target => exact absurd rfl (hlink target)
  | _ => simp [isLink, he]

/-- A walk for which nothing is too much comes to the end of the way. -/
theorem Way.walk_eq_ok (h : t.Way here todo met l) (hfits : ∀ m ∈ met, fits m = true) (hlinks : t.links met ≤ n) :
    t.walk fits n here todo = .ok l := by
  induction h generalizing n with
  | done => rw [walk]
  | stay hdirectory hs _ ih =>
    rw [walk_stay hdirectory hs]
    exact ih hfits hlinks
  | up hdirectory _ ih =>
    rw [walk_up hdirectory]
    exact ih hfits hlinks
  | enter hdirectory hs hlength he hlink _ ih =>
    obtain ⟨hfirst, hrest⟩ := List.forall_mem_cons.1 hfits
    rw [links_cons_of_not_link he hlink] at hlinks
    rw [walk_name hdirectory hs hlength hfirst he]
    split
    · exact absurd rfl (hlink _)
    · exact ih hrest hlinks
  | link hdirectory hs hlength he _ ih =>
    obtain ⟨hfirst, hrest⟩ := List.forall_mem_cons.1 hfits
    rw [links_cons_of_link he] at hlinks
    obtain ⟨n, rfl⟩ : ∃ k, n = k + 1 := ⟨n - 1, by omega⟩
    rw [walk_name hdirectory hs hlength hfirst he]
    exact ih hrest (by omega)

/-- A walk is stopped on a way if something there does not fit or there are too many links. -/
theorem Way.walk_eq_error (h : t.Way here todo met l) (hlimits : ¬((∀ m ∈ met, fits m = true) ∧ t.links met ≤ n)) :
    t.walk fits n here todo = .error .nameTooLong ∨ t.walk fits n here todo = .error .tooManyLinks := by
  induction h generalizing n with
  | done => exact absurd ⟨by simp, Nat.zero_le n⟩ hlimits
  | stay hdirectory hs _ ih =>
    rw [walk_stay hdirectory hs]
    exact ih hlimits
  | up hdirectory _ ih =>
    rw [walk_up hdirectory]
    exact ih hlimits
  | @enter here _ s _ _ _ hdirectory hs hlength he hlink _ ih =>
    by_cases hfirst : fits (here ++ [s]) = true
    · rw [links_cons_of_not_link he hlink, List.forall_mem_cons] at hlimits
      rw [walk_name hdirectory hs hlength hfirst he]
      split
      · exact absurd rfl (hlink _)
      · exact ih fun h => hlimits ⟨⟨hfirst, h.1⟩, h.2⟩
    · exact .inl (walk_of_not_fits hs hfirst)
  | @link here _ s _ _ _ hdirectory hs hlength he _ ih =>
    by_cases hfirst : fits (here ++ [s]) = true
    · rw [links_cons_of_link he, List.forall_mem_cons] at hlimits
      rw [walk_name hdirectory hs hlength hfirst he]
      cases n with
      | zero => exact .inr rfl
      | succ n => exact ih fun h => hlimits ⟨⟨hfirst, h.1⟩, by omega⟩
    · exact .inl (walk_of_not_fits hs hfirst)

end CrateYard.FileTree
