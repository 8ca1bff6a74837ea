import CrateYard.Proofs.Build.View

/-! The readers of a cell that is written once. Writes, new readers and single steps of readers may come in any order. A
reader parks only while the cell is empty and nothing has changed since it looked, and a write wakes those that are
parked: so none is parked once the cell is written, and from then on each reader has at most two turns to take until it
is done. -/

namespace CrateYard

variable {α : Type}

namespace Reader

variable {s : Once α} {x : Reader α} {a : α}

/-- The reader has a step to take; one that is parked has none before it is woken. -/
def isRunnable : Reader α → Bool
  | .looking | .looked _ => true
  | .parked _ | .done _ => false

/-- The turns until a reader of a written cell is done. -/
def turnsLeft : Reader α → Nat
  | .looking => 1
  | .looked _ => 2
  | .parked _ | .done _ => 0

/-- What the reader remembers is true of the cell. -/
def Agrees (s : Once α) : Reader α → Prop
  | .looking => True
  | .looked seen => seen < s.version ∨ seen = s.version ∧ s.value = none
  | .parked seen => seen = s.version ∧ s.value = none
  | .done a => s.value = some a

theorem Agrees.step (h : x.Agrees s) : (x.step s).Agrees s := by
  cases x with
  | looking =>
    cases hv : s.value with
    | none => simp [Reader.step, hv, Agrees]
    | some a => simp [Reader.step, hv, Agrees]
  | looked seen =>
    by_cases hseen : s.version = seen
    · rcases h with h | h
      · omega
      · simpa [Reader.step, hseen, Agrees] using h.2
    · simp [Reader.step, hseen, Agrees]
  | parked seen => exact h
  | done a => exact h

/-- No reader that agrees with an empty cell disagrees with the written one: those that were parked are woken. -/
theorem Agrees.wake (h : x.Agrees s) (hv : s.value = none) (a : α) : x.wake.Agrees ⟨some a, s.version + 1⟩ := by
  cases x with
  | looking => trivial
  | looked seen =>
    left
    rcases h with h | ⟨h, -⟩
    · exact Nat.lt_succ_of_lt h
    · exact Nat.lt_succ_of_le (Nat.le_of_eq h)
  | parked seen => exact .inl (Nat.lt_succ_of_le (Nat.le_of_eq h.1))
  | done b => cases hv.symm.trans h

theorem Agrees.value_eq (h : x.Agrees s) (hx : x.value? = some a) : s.value = some a := by
  cases x with
  | done b =>
    cases hx
    exact h
  | _ => cases hx

theorem Agrees.value?_eq (h : x.Agrees s) (hs : s.value = some a) (hx : x.turnsLeft = 0) : x.value? = some a := by
  cases x with
  | looking => cases hx
  | looked seen => cases hx
  | parked seen => cases hs.symm.trans h.2
  | done b => exact h.symm.trans hs

theorem Agrees.turnsLeft_step (h : x.Agrees s) (hs : s.value = some a) :
    (x.step s).turnsLeft = x.turnsLeft - 1 := by
  cases x with
  | looking => simp [Reader.step, hs, turnsLeft]
  | looked seen =>
    have hseen : s.version ≠ seen := by
      rcases h with h | h
      · omega
      · cases hs.symm.trans h.2
    simp [Reader.step, hseen, turnsLeft]
  | parked seen => cases hs.symm.trans h.2
  | done b => rfl

theorem turnsLeft_of_not_isRunnable (h : x.isRunnable = false) : x.turnsLeft = 0 := by
  cases x with
  | looking | looked => cases h
  | parked | done => rfl

theorem turnsLeft_le (x : Reader α) : x.turnsLeft ≤ 2 := by
  cases x <;> simp [turnsLeft]

theorem isRunnable_run (s : Once α) (x : Reader α) : (x.run s).isRunnable = false := by
  cases x with
  | looking => cases hv : s.value <;> simp [run, step, hv, isRunnable]
  | looked seen =>
    by_cases hseen : s.version = seen
    · simp [run, step, hseen, isRunnable]
    · cases hv : s.value <;> simp [run, step, hseen, hv, isRunnable]
  | parked seen => rfl
  | done a => rfl

end Reader

namespace Readership

variable {r : Readership α} {a : α} {n : Nat}

/-- What can happen to a cell and its readers. -/
inductive Move (α : Type) where
  | write (a : α)
  | join
  /-- The reader with this number takes a step. -/
  | step (reader : Nat)
deriving DecidableEq

def Move.written? : Move α → Option α
  | .write a => some a
  | _ => none

def Move.isJoin : Move α → Bool
  | .join => true
  | _ => false

def Move.isTurnOf (n : Nat) : Move α → Bool
  | .step reader => reader = n
  | _ => false

/-- The readership after a move; a write that is refused leaves it as it is. -/
def after (r : Readership α) : Move α → Readership α
  | .write a =>
    match r.write a with
    | .ok r' => r'
    | .error _ => r
  | .join => r.join
  | .step n => r.stepReader n

def afterAll (r : Readership α) (moves : List (Move α)) : Readership α :=
  moves.foldl after r

def answers (r : Readership α) : List (Move α) → List (Except Once.Error Unit)
  | [] => []
  | .write a :: rest => (r.write a).map (fun _ => ()) :: answers (r.after (.write a)) rest
  | move :: rest => answers (r.after move) rest

def Sound (r : Readership α) : Prop :=
  ∀ x ∈ r.readers, x.Agrees r.cell

theorem write_of_some (h : r.cell.value = some a) (b : α) : r.write b = .error .alreadyWritten := by
  simp [write, Once.write, Once.isWritten, h, Except.map]

theorem after_write_of_none (h : r.cell.value = none) (a : α) : r.after (.write a) = r.written a := by
  rw [after, write_eq h]

theorem after_write_of_some (h : r.cell.value = some a) (b : α) : r.after (.write b) = r := by
  rw [after, write_of_some h]

/-! One move. -/

theorem Sound.after (h : r.Sound) (move : Move α) : (r.after move).Sound := by
  cases move with
  | write a =>
    cases hv : r.cell.value with
    | none =>
      rw [after_write_of_none hv]
      intro x hx
      obtain ⟨y, hy, rfl⟩ := List.mem_map.1 hx
      exact (h y hy).wake hv a
    | some b =>
      rw [after_write_of_some hv]
      exact h
  | join =>
    intro x hx
    rcases List.mem_append.1 hx with hx | hx
    · exact h x hx
    · rw [List.mem_singleton.1 hx]
      trivial
  | step n =>
    intro x hx
    obtain ⟨i, hi⟩ := List.mem_iff_getElem?.1 hx
    rw [Readership.after, stepReader, List.getElem?_modify] at hi
    obtain ⟨y, hy, rfl⟩ := Option.map_eq_some_iff.1 hi
    have hagrees := h y (List.mem_of_getElem? hy)
    split
    · exact hagrees.step
    · exact hagrees

theorem value_after (r : Readership α) (move : Move α) :
    (r.after move).cell.value = r.cell.value.or move.written? := by
  cases move with
  | write a =>
    cases hv : r.cell.value with
    | none => simp [after_write_of_none hv, written, Move.written?]
    | some b => simp [after_write_of_some hv, hv]
  | join => simp [after, join, Move.written?]
  | step n => simp [after, stepReader, Move.written?]

theorem getElem?_after {x : Reader α} (hv : r.cell.value = some a) (hx : r.readers[n]? = some x) (move : Move α) :
    (r.after move).readers[n]? = some (if move.isTurnOf n then x.step r.cell else x) := by
  cases move with
  | write b => simp [after_write_of_some hv, Move.isTurnOf, hx]
  | join =>
    obtain ⟨hn, -⟩ := List.getElem?_eq_some_iff.1 hx
    simp [after, join, Move.isTurnOf, List.getElem?_append_left hn, hx]
  | step m =>
    rw [after, stepReader, List.getElem?_modify, hx]
    simp [Move.isTurnOf]

theorem length_after (r : Readership α) (move : Move α) :
    (r.after move).readers.length = r.readers.length + if move.isJoin then 1 else 0 := by
  cases move with
  | write a =>
    cases hv : r.cell.value with
    | none => simp [after_write_of_none hv, written, Move.isJoin]
    | some b => simp [after_write_of_some hv, Move.isJoin]
  | join => simp [after, join, Move.isJoin]
  | step n => simp [after, stepReader, Move.isJoin]

/-! Many moves. -/

theorem afterAll_cons (r : Readership α) (move : Move α) (moves : List (Move α)) :
    r.afterAll (move :: moves) = (r.after move).afterAll moves :=
  rfl

theorem Sound.afterAll (h : r.Sound) (moves : List (Move α)) : (r.afterAll moves).Sound := by
  induction moves generalizing r with
  | nil => exact h
  | cons move rest ih => exact ih (h.after move)

theorem value_afterAll (r : Readership α) (moves : List (Move α)) :
    (r.afterAll moves).cell.value = r.cell.value.or (moves.filterMap Move.written?).head? := by
  induction moves generalizing r with
  | nil => simp [afterAll]
  | cons move rest ih =>
    rw [afterAll_cons, ih, value_after, Option.or_assoc]
    cases hw : move.written? <;> simp [hw]

theorem length_afterAll (r : Readership α) (moves : List (Move α)) :
    (r.afterAll moves).readers.length = r.readers.length + moves.countP Move.isJoin := by
  induction moves generalizing r with
  | nil => rfl
  | cons move rest ih => rw [afterAll_cons, ih, length_after, List.countP_cons, Nat.add_assoc, Nat.add_comm (ite _ _ _)]

theorem answers_of_some (hv : r.cell.value = some a) (moves : List (Move α)) :
    r.answers moves = (moves.filterMap Move.written?).map fun _ => .error .alreadyWritten := by
  induction moves generalizing r with
  | nil => rfl
  | cons move rest ih =>
    have hrest : (r.after move).cell.value = some a := by rw [value_after, hv, Option.some_or]
    cases move with
    | write b => simp [answers, write_of_some hv, ih hrest, Move.written?, Except.map]
    | join => exact ih hrest
    | step n => exact ih hrest

theorem answers_of_none (hv : r.cell.value = none) (moves : List (Move α)) :
    r.answers moves = ((moves.filterMap Move.written?).take 1).map (fun _ => .ok ()) ++
      ((moves.filterMap Move.written?).drop 1).map fun _ => .error .alreadyWritten := by
  induction moves generalizing r with
  | nil => rfl
  | cons move rest ih =>
    have hrest : (r.after move).cell.value = move.written? := by rw [value_after, hv, Option.none_or]
    cases move with
    | write b => simp [answers, write_eq hv, answers_of_some hrest, Move.written?, Except.map]
    | join => exact ih hrest
    | step n => exact ih hrest

/-- Each turn of a reader of a written cell brings it nearer to its end, whatever else happens in between. -/
theorem exists_turnsLeft_afterAll {x : Reader α} (h : r.Sound) (hv : r.cell.value = some a)
    (hx : r.readers[n]? = some x) (moves : List (Move α)) :
    ∃ y, (r.afterAll moves).readers[n]? = some y ∧ y.turnsLeft = x.turnsLeft - moves.countP (Move.isTurnOf n) := by
  induction moves generalizing r x with
  | nil => exact ⟨x, hx, rfl⟩
  | cons move rest ih =>
    have hrest : (r.after move).cell.value = some a := by rw [value_after, hv, Option.some_or]
    obtain ⟨y, hy, hturns⟩ := ih (h.after move) hrest (getElem?_after hv hx move)
    refine ⟨y, hy, ?_⟩
    rw [hturns, List.countP_cons]
    split
    · rw [(h x (List.mem_of_getElem? hx)).turnsLeft_step hv]
      omega
    · rfl

/-- A reader of a written cell is done after two turns of its own. -/
theorem exists_done_afterAll (h : r.Sound) (hv : r.cell.value = some a) (hn : n < r.readers.length)
    {moves : List (Move α)} (hturns : 2 ≤ moves.countP (Move.isTurnOf n)) :
    ∃ y, (r.afterAll moves).readers[n]? = some y ∧ y.value? = some a := by
  obtain ⟨y, hy, hleft⟩ := exists_turnsLeft_afterAll h hv (List.getElem?_eq_getElem hn) moves
  have hvalue : (r.afterAll moves).cell.value = some a := by rw [value_afterAll, hv, Option.some_or]
  have hbound := r.readers[n].turnsLeft_le
  exact ⟨y, hy, (h.afterAll moves y (List.mem_of_getElem? hy)).value?_eq hvalue (by omega)⟩

theorem sound_empty : (empty : Readership α).Sound :=
  fun _ hx => absurd hx List.not_mem_nil

theorem Sound.settle (h : r.Sound) : r.settle.Sound := by
  intro x hx
  obtain ⟨y, hy, rfl⟩ := List.mem_map.1 hx
  exact (h y hy).step.step.step

/-- Whatever is written, whoever joins and whoever takes a step, in any order: the first write is taken and all others
are refused, the cell holds the first value, there is a reader for each that has joined, and one that is done has the
first value. The readers come to a rest by themselves. Once something is written, a write changes nothing; at rest all
readers are done, and each of them is done by its second turn, whatever else happens. -/
theorem served_of_moves (moves : List (Move α)) :
    let r := empty.afterAll moves
    let values := moves.filterMap Move.written?
    empty.answers moves =
        (values.take 1).map (fun _ => .ok ()) ++ (values.drop 1).map (fun _ => .error .alreadyWritten) ∧
      r.cell.value = values.head? ∧ r.readers.length = moves.countP Move.isJoin ∧
      (∀ x ∈ r.readers, ∀ a, x.value? = some a → values.head? = some a) ∧
      (∀ x ∈ r.settle.readers, x.isRunnable = false) ∧
      ∀ first, values.head? = some first →
        (∀ b, r.write b = .error .alreadyWritten ∧ r.after (.write b) = r) ∧
        ((∀ x ∈ r.readers, x.isRunnable = false) → ∀ x ∈ r.readers, x.value? = some first) ∧
        (∀ x ∈ r.settle.readers, x.value? = some first) ∧
        ∀ n < r.readers.length, ∀ later : List (Move α), 2 ≤ later.countP (Move.isTurnOf n) →
          ∃ x, (r.afterAll later).readers[n]? = some x ∧ x.value? = some first := by
  intro r values
  have hsound : r.Sound := sound_empty.afterAll moves
  have hvalue : r.cell.value = values.head? := value_afterAll empty moves
  have hlength : r.readers.length = moves.countP Move.isJoin := (length_afterAll empty moves).trans (Nat.zero_add _)
  have hrest : ∀ x ∈ r.settle.readers, x.isRunnable = false := by
    intro x hx
    obtain ⟨y, -, rfl⟩ := List.mem_map.1 hx
    exact y.isRunnable_run r.cell
  refine ⟨answers_of_none rfl moves, hvalue, hlength, fun x hx a ha => ?_, hrest, fun first hfirst => ?_⟩
  · exact hvalue.symm.trans ((hsound x hx).value_eq ha)
  · have hwritten : r.cell.value = some first := hvalue.trans hfirst
    refine ⟨fun b => ⟨write_of_some hwritten b, after_write_of_some hwritten b⟩, fun hstill x hx => ?_,
      fun x hx => ?_, fun n hn later hturns => exists_done_afterAll hsound hwritten hn hturns⟩
    · exact (hsound x hx).value?_eq hwritten (Reader.turnsLeft_of_not_isRunnable (hstill x hx))
    · exact (hsound.settle x hx).value?_eq hwritten (Reader.turnsLeft_of_not_isRunnable (hrest x hx))

/-- One reader parks before the first write, one looks before it, one joins after the second: all get the first
value. -/
theorem served_of_moves_parked :
    let moves : List (Move Nat) :=
      [.join, .join, .step 0, .step 0, .step 1, .write 7, .step 1, .write 8, .join]
    (empty.afterAll moves).readers = [.looked 0, .looking, .looking] ∧
      ∀ x ∈ (empty.afterAll moves).settle.readers, x.value? = some 7 := by
  intro moves
  have h := served_of_moves moves
  exact ⟨rfl, (h.2.2.2.2.2 7 rfl).2.2.1⟩

end Readership

end CrateYard
