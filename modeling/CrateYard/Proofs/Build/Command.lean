import CrateYard.Build.Command
import Mathlib.Data.List.TakeWhile

/-! The words of a build's command. The words of the task come first and the three that the build needs itself come
last. A separator among the task's words ends what the program reads for itself; what the build needs then goes to
somebody else, unless the task has it before its separator. -/

namespace CrateYard

namespace Text

/-- A text as the row of its words: runs of characters that are not blank, each up to a blank or the end. -/
inductive InWords : List Char → List (List Char) → Prop
  | nil : InWords [] []
  | blank {c : Char} {text : List Char} {words : List (List Char)} : isBlank c = true → InWords text words →
      InWords (c :: text) words
  | word {word text : List Char} {words : List (List Char)} : word ≠ [] → (∀ c ∈ word, isBlank c = false) →
      (∀ c ∈ text.head?, isBlank c = true) → InWords text words → InWords (word ++ text) (word :: words)

theorem inWords_wordsFrom (held text : List Char) (hheld : ∀ c ∈ held, isBlank c = false) :
    InWords (held ++ text) (wordsFrom held text) := by
  induction text generalizing held with
  | nil =>
    cases held with
    | nil => exact .nil
    | cons a held => exact .word (by simp) hheld (by simp) .nil
  | cons c rest ih =>
    by_cases hblank : isBlank c = true
    · have hrest : InWords (c :: rest) (wordsFrom [] rest) := .blank hblank (ih [] (by simp))
      cases held with
      | nil => simpa [wordsFrom, hblank] using hrest
      | cons a held =>
        simp only [wordsFrom, hblank, List.isEmpty_cons, Bool.false_eq_true, if_true, if_false]
        exact .word (by simp) hheld (by simpa using hblank) hrest
    · have hgrown : ∀ d ∈ held ++ [c], isBlank d = false := by
        intro d hd
        rcases List.mem_append.1 hd with hd | hd
        · exact hheld d hd
        · rw [List.mem_singleton.1 hd]
          exact Bool.eq_false_iff.2 hblank
      have hword := ih (held ++ [c]) hgrown
      rw [List.append_assoc, List.singleton_append] at hword
      simpa only [wordsFrom, hblank, Bool.false_eq_true, if_false] using hword

theorem inWords_words (text : List Char) : InWords text (words text) :=
  inWords_wordsFrom [] text (by simp)

end Text

namespace Build

/-- What ends the words that a program reads for itself. -/
def separator : String := "--"

def ownWords (args : List String) : List String :=
  args.takeWhile (· ≠ separator)

def passedOn (args : List String) : List String :=
  args.dropWhile (· ≠ separator)

/-- The words of a command that come from its task: a test build has a subcommand of its own. -/
def taskArgs (task : String) (isTest : Bool) : List String :=
  (if isTest then ["test", "--no-run"] else [(taskWords task).headD "build"]) ++ (taskWords task).tail

/-- What the build needs the program to read. -/
def neededArgs (project : Project) : List String :=
  [recordFlag, "--manifest-path", project.manifest.text]

/-- The flag and the pair stand among the words. -/
def HasNeeded (project : Project) (words : List String) : Prop :=
  recordFlag ∈ words ∧ ["--manifest-path", project.manifest.text] <:+: words

variable {args more : List String} {project : Project}

theorem ownWords_of_notMem (h : separator ∉ args) (more : List String) :
    ownWords (args ++ more) = args ++ ownWords more :=
  List.takeWhile_append_of_pos fun w hw => by simpa using ne_of_mem_of_not_mem hw h

theorem passedOn_of_notMem (h : separator ∉ args) (more : List String) : passedOn (args ++ more) = passedOn more :=
  List.dropWhile_append_of_pos fun w hw => by simpa using ne_of_mem_of_not_mem hw h

theorem separator_notMem_ownWords (args : List String) : separator ∉ ownWords args := fun h => by
  simpa using List.mem_takeWhile_imp h

theorem ownWords_append_of_mem (h : separator ∈ args) (more : List String) :
    ownWords (args ++ more) = ownWords args ∧ passedOn (args ++ more) = passedOn args ++ more := by
  obtain ⟨before, after, rfl, hbefore⟩ := List.eq_append_cons_of_mem h
  have hown : ∀ rest, ownWords (separator :: rest) = [] := fun rest => List.takeWhile_cons_of_neg (by simp)
  have hpassed : ∀ rest, passedOn (separator :: rest) = separator :: rest := fun rest =>
    List.dropWhile_cons_of_neg (by simp)
  constructor
  · rw [List.append_assoc, List.cons_append, ownWords_of_notMem hbefore, ownWords_of_notMem hbefore, hown, hown]
  · rw [List.append_assoc, List.cons_append, passedOn_of_notMem hbefore, passedOn_of_notMem hbefore, hpassed, hpassed,
      List.cons_append]

theorem manifest_ne_of_hasNeeded (h : HasNeeded project (ownWords args)) : project.manifest.text ≠ separator := by
  intro hmanifest
  have hmem : project.manifest.text ∈ ownWords args := h.2.subset (by simp)
  rw [hmanifest] at hmem
  exact separator_notMem_ownWords args hmem

theorem ownWords_neededArgs (h : project.manifest.text ≠ separator) :
    ownWords (neededArgs project) = neededArgs project := by
  have hflag : recordFlag ≠ separator := by decide
  have hpair : "--manifest-path" ≠ separator := by decide
  simp [ownWords, neededArgs, hflag, hpair, h]

theorem hasNeeded_append_neededArgs (args : List String) : HasNeeded project (args ++ neededArgs project) :=
  ⟨by simp [neededArgs], args ++ [recordFlag], [], by simp [neededArgs]⟩

/-- The words of the task are all there, in their order, with those that are needed behind them. The program reads the
needed ones itself exactly if the task passes no separator on, or has them before it; otherwise they go where the words
behind the separator go. A manifest that is called like the separator is never read. -/
theorem command_hasNeeded_iff (cargo : String) (project : Project) (task : String) (isTest : Bool) :
    Text.InWords task.toList ((taskWords task).map String.toList) ∧
    (command cargo project task isTest).args = taskArgs task isTest ++ neededArgs project ∧
    (HasNeeded project (ownWords (command cargo project task isTest).args) ↔
      separator ∉ taskArgs task isTest ∧ project.manifest.text ≠ separator ∨
        HasNeeded project (ownWords (taskArgs task isTest))) ∧
    (separator ∈ taskArgs task isTest →
      passedOn (command cargo project task isTest).args = passedOn (taskArgs task isTest) ++ neededArgs project) := by
  have hargs : (command cargo project task isTest).args = taskArgs task isTest ++ neededArgs project := rfl
  refine ⟨?_, hargs, ?_, fun hmem => by rw [hargs, (ownWords_append_of_mem hmem _).2]⟩
  · have hwords : (taskWords task).map String.toList = Text.words task.toList := by simp [taskWords]
    rw [hwords]
    exact Text.inWords_words task.toList
  rw [hargs]
  by_cases hmem : separator ∈ taskArgs task isTest
  · rw [(ownWords_append_of_mem hmem _).1]
    exact ⟨.inr, fun h => h.resolve_left fun hnot => hnot.1 hmem⟩
  · constructor
    · exact fun h => .inl ⟨hmem, manifest_ne_of_hasNeeded h⟩
    · intro h
      have hmanifest : project.manifest.text ≠ separator := h.elim And.right manifest_ne_of_hasNeeded
      rw [ownWords_of_notMem hmem, ownWords_neededArgs hmanifest]
      exact hasNeeded_append_neededArgs (taskArgs task isTest)

/-- A program that is run with words of its own gets the words that its builder needs. -/
theorem command_hasNeeded_iff_passedOn :
    let project := Project.new ⟨"/ws/app/Cargo.toml"⟩
    let task := "run --release -- --port 80"
    let c := command "cargo" project task false
    separator ∈ taskArgs task false ∧ ¬ HasNeeded project (ownWords c.args) ∧
      passedOn c.args = ["--", "--port", "80", recordFlag, "--manifest-path", "/ws/app/Cargo.toml"] := by
  intro project task c
  have htask : taskArgs task false = ["run", "--release", "--", "--port", "80"] := by decide
  have hmem : separator ∈ taskArgs task false := by
    rw [htask]
    decide
  obtain ⟨-, -, hiff, hpassed⟩ := command_hasNeeded_iff "cargo" project task false
  refine ⟨hmem, ?_, ?_⟩
  · rw [hiff]
    rintro (⟨hnot, -⟩ | ⟨hflag, -⟩)
    · exact hnot hmem
    · rw [htask] at hflag
      exact absurd hflag (by decide)
  · rw [hpassed hmem, htask]
    decide

end Build

end CrateYard
