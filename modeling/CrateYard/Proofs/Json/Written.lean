import CrateYard.Json.Record
import Mathlib.Algebra.Group.Nat.Defs
import Mathlib.Data.List.Nodup
import Mathlib.Data.List.Perm.Basic

/-! Records as others may write them: the members of an object in any order, those that hold a default left out, and
members with other names among them. Such an object is read as the record that it writes, and one that names a member
of the record twice is refused. -/

namespace CrateYard.Json

variable {α : Type} {Writes : α → Value → Prop} {read : Value → Option α}

/-- Every value that writes something is read as that. -/
def Understands (read : Value → Option α) (Writes : α → Value → Prop) : Prop :=
  ∀ a v, Writes a v → read v = some a

/-! What writes a text, a list, a number and a choice. -/

def WritesText (s : String) (v : Value) : Prop :=
  v = .text s

def WritesBool (b : Bool) (v : Value) : Prop :=
  v = .bool b

/-- The number is one of 64 bits. -/
def WritesWord (n : Nat) (v : Value) : Prop :=
  v = .nat n ∧ n < 2 ^ 64

def WritesList (Writes : α → Value → Prop) (as : List α) (v : Value) : Prop :=
  ∃ items, v = .array items ∧ List.Forall₂ Writes as items

/-- Nothing is written as `null`. -/
def WritesOption (Writes : α → Value → Prop) : Option α → Value → Prop
  | none, v => v = .null
  | some a, v => Writes a v

theorem understands_text : Understands Value.text? WritesText := by
  rintro s v rfl
  rfl

theorem understands_bool : Understands Value.bool? WritesBool := by
  rintro b v rfl
  rfl

theorem understands_word : Understands Value.word64? WritesWord := by
  rintro n v ⟨rfl, hn⟩
  exact if_pos hn

theorem Understands.list (h : Understands read Writes) : Understands (Value.list? read) (WritesList Writes) := by
  rintro as v ⟨items, rfl, hitems⟩
  rw [Value.list?]
  induction hitems with
  | nil => rfl
  | cons ha hrest ih =>
    rw [List.mapM_cons, h _ _ ha, ih]
    rfl

/-- There is a value to write everything with. -/
def Writable (Writes : α → Value → Prop) : Prop :=
  ∀ a, ∃ v, Writes a v

theorem writable_text : Writable WritesText :=
  fun s => ⟨.text s, rfl⟩

theorem writable_bool : Writable WritesBool :=
  fun b => ⟨.bool b, rfl⟩

theorem Writable.list (h : Writable Writes) : Writable (WritesList Writes) := by
  intro as
  induction as with
  | nil => exact ⟨.array [], [], rfl, .nil⟩
  | cons a rest ih =>
    obtain ⟨v, hv⟩ := h a
    obtain ⟨-, items, -, hitems⟩ := ih
    exact ⟨.array (v :: items), v :: items, rfl, .cons hv hitems⟩

theorem Writable.option (h : Writable Writes) : Writable (WritesOption Writes)
  | none => ⟨.null, rfl⟩
  | some a => h a

/-! Objects. -/

/-- A member that a record has: its name, the values that it may be written with, and whether it may be left out. -/
structure Slot where
  name : String
  Writes : Value → Prop
  MayMiss : Prop

namespace Slot

def required (name : String) (Writes : α → Value → Prop) (a : α) : Slot :=
  ⟨name, Writes a, False⟩

def optional (name : String) (Writes : α → Value → Prop) (a : Option α) : Slot :=
  ⟨name, WritesOption Writes a, a = none⟩

def defaulted (name : String) (Writes : α → Value → Prop) (default a : α) : Slot :=
  ⟨name, Writes a, a = default⟩

end Slot

/-- The members fill the slots in their order, but for some that may be left out. -/
inductive Fills : List Slot → List (Literal × Value) → Prop where
  | nil : Fills [] []
  | given {slot : Slot} {slots : List Slot} {members : List (Literal × Value)} {v : Value} (hv : slot.Writes v)
    (h : Fills slots members) : Fills (slot :: slots) ((some slot.name, v) :: members)
  | missing {slot : Slot} {slots : List Slot} {members : List (Literal × Value)} (hmay : slot.MayMiss)
    (h : Fills slots members) : Fills (slot :: slots) members

/-- The members of an object that fills the slots: in any order, and with members of other names among them. -/
def WritesSlots (slots : List Slot) (members : List (Literal × Value)) : Prop :=
  ∃ known others, Fills slots known ∧ (∀ m ∈ others, ∃ name, m.1 = some name ∧ name ∉ slots.map Slot.name) ∧
    members.Perm (known ++ others)

/-- The value is an object that fills the slots. -/
def WritesObject (slots : List Slot) (v : Value) : Prop :=
  ∃ members, v = .object members ∧ WritesSlots slots members

/-- The members with this name: one that fills the slot, or none if it may be left out. -/
def Slot.IsFilled (slot : Slot) (named : List (Literal × Value)) : Prop :=
  (∃ v, slot.Writes v ∧ named = [(some slot.name, v)]) ∨ slot.MayMiss ∧ named = []

section

variable {slots : List Slot} {members known others : List (Literal × Value)} {slot : Slot}

theorem exists_writesObject (h : ∀ slot ∈ slots, ∃ v, slot.Writes v) : ∃ v, WritesObject slots v := by
  obtain ⟨known, hknown⟩ : ∃ known, Fills slots known := by
    induction slots with
    | nil => exact ⟨[], .nil⟩
    | cons slot rest ih =>
      obtain ⟨⟨v, hv⟩, hrest⟩ := List.forall_mem_cons.1 h
      obtain ⟨known, hknown⟩ := ih hrest
      exact ⟨_, .given hv hknown⟩
  exact ⟨_, known, rfl, known, [], hknown, List.forall_mem_nil _, by rw [List.append_nil]⟩

theorem Fills.exists_slot (h : Fills slots members) : ∀ m ∈ members, ∃ slot ∈ slots, m.1 = some slot.name := by
  induction h with
  | nil => simp
  | given hv h ih =>
    rintro m hm
    rcases List.mem_cons.1 hm with rfl | hm
    · exact ⟨_, List.mem_cons_self, rfl⟩
    · obtain ⟨slot, hslot, hname⟩ := ih m hm
      exact ⟨slot, List.mem_cons_of_mem _ hslot, hname⟩
  | missing hmay h ih =>
    intro m hm
    obtain ⟨slot, hslot, hname⟩ := ih m hm
    exact ⟨slot, List.mem_cons_of_mem _ hslot, hname⟩

theorem filter_name_eq_nil {name : String} (h : ∀ m ∈ members, ∃ other, m.1 = some other ∧ other ≠ name) :
    (members.filter fun m => m.1 = some name) = [] := by
  refine List.filter_eq_nil_iff.2 fun m hm => ?_
  obtain ⟨other, hother, hne⟩ := h m hm
  simp [hother, hne]

theorem Fills.isFilled (h : Fills slots members) (hnodup : (slots.map Slot.name).Nodup) (hslot : slot ∈ slots) :
    slot.IsFilled (members.filter fun m => m.1 = some slot.name) := by
  induction h with
  | nil => cases hslot
  | @given first slots members v hv h ih =>
    obtain ⟨hfirst, hrest⟩ := List.nodup_cons.1 hnodup
    rcases List.mem_cons.1 hslot with rfl | hslot
    · have hnone : (members.filter fun m => m.1 = some slot.name) = [] := by
        refine filter_name_eq_nil fun m hm => ?_
        obtain ⟨other, hother, hname⟩ := h.exists_slot m hm
        exact ⟨other.name, hname, fun he => hfirst (he ▸ List.mem_map_of_mem hother)⟩
      exact .inl ⟨v, hv, by simp [hnone]⟩
    · have hne : first.name ≠ slot.name := fun he => hfirst (he ▸ List.mem_map_of_mem hslot)
      rw [List.filter_cons_of_neg (by simpa using hne)]
      exact ih hrest hslot
  | @missing first slots members hmay h ih =>
    obtain ⟨hfirst, hrest⟩ := List.nodup_cons.1 hnodup
    rcases List.mem_cons.1 hslot with rfl | hslot
    · refine .inr ⟨hmay, filter_name_eq_nil fun m hm => ?_⟩
      obtain ⟨other, hother, hname⟩ := h.exists_slot m hm
      exact ⟨other.name, hname, fun he => hfirst (he ▸ List.mem_map_of_mem hother)⟩
    · exact ih hrest hslot

/-- Neither the order nor the other members make a difference to a slot. -/
theorem WritesSlots.isFilled (h : WritesSlots slots members) (hnodup : (slots.map Slot.name).Nodup)
    (hslot : slot ∈ slots) : slot.IsFilled (members.filter fun m => m.1 = some slot.name) := by
  obtain ⟨known, others, hknown, hothers, hperm⟩ := h
  have hnone : (others.filter fun m => m.1 = some slot.name) = [] := by
    refine filter_name_eq_nil fun m hm => ?_
    obtain ⟨name, hname, hne⟩ := hothers m hm
    exact ⟨name, hname, fun he => hne (he ▸ List.mem_map_of_mem hslot)⟩
  have hnamed := hperm.filter fun m => m.1 = some slot.name
  rw [List.filter_append, hnone, List.append_nil] at hnamed
  rcases hknown.isFilled hnodup hslot with ⟨v, hv, hone⟩ | ⟨hmay, hnil⟩
  · rw [hone] at hnamed
    exact .inl ⟨v, hv, hnamed.eq_singleton⟩
  · rw [hnil] at hnamed
    exact .inr ⟨hmay, hnamed.eq_nil⟩

theorem WritesSlots.isSome_name (h : WritesSlots slots members) : ∀ m ∈ members, m.1.isSome := by
  obtain ⟨known, others, hknown, hothers, hperm⟩ := h
  intro m hm
  rcases List.mem_append.1 (hperm.subset hm) with hm | hm
  · obtain ⟨slot, -, hname⟩ := hknown.exists_slot m hm
    rw [hname]
    rfl
  · obtain ⟨name, hname, -⟩ := hothers m hm
    rw [hname]
    rfl

end

theorem Value.isSome_of_list? {items : List Value} (h : (Value.list? read (.array items)).isSome) {v : Value}
    (hv : v ∈ items) : (read v).isSome := by
  rw [Value.list?] at h
  induction items with
  | nil => cases hv
  | cons first rest ih =>
    rw [List.mapM_cons] at h
    cases hfirst : read first with
    | none => simp [hfirst] at h
    | some a =>
      rcases List.mem_cons.1 hv with rfl | hv
      · rw [hfirst]
        rfl
      · cases hrest : rest.mapM read with
        | none => simp [hfirst, hrest] at h
        | some as => exact ih (by rw [hrest]; rfl) hv

namespace Record

variable {r : Record} {slots : List Slot} {v : Value} {members : List (Literal × Value)} {name : String}

/-- The record gives a value that fills the slot, or none if it may be left out. -/
def Fits (r : Record) (slot : Slot) : Prop :=
  (∃ v, slot.Writes v ∧ r.presence slot.name = .given v) ∨ slot.MayMiss ∧ r.presence slot.name = .absent

theorem ofValue?_of_writes (h : WritesObject slots v) (hnodup : (slots.map Slot.name).Nodup) :
    ∃ r, ofValue? (slots.map Slot.name) v = some r ∧ ∀ slot ∈ slots, r.Fits slot := by
  obtain ⟨members, rfl, hmembers⟩ := h
  have hnamed : (members.all fun m => m.1.isSome) = true := List.all_eq_true.2 hmembers.isSome_name
  have honce : ((slots.map Slot.name).all fun f => (members.filter fun m => m.1 = some f).length ≤ 1) = true := by
    refine List.all_eq_true.2 fun f hf => decide_eq_true ?_
    obtain ⟨slot, hslot, rfl⟩ := List.mem_map.1 hf
    rcases hmembers.isFilled hnodup hslot with ⟨v, -, hone⟩ | ⟨-, hnil⟩
    · rw [hone]
      exact Nat.le_refl 1
    · rw [hnil]
      exact Nat.zero_le 1
  refine ⟨_, if_pos (by rw [hnamed, honce]; rfl), fun slot hslot => ?_⟩
  have hfind : (members.find? fun m => m.1 = some slot.name) =
      (members.filter fun m => m.1 = some slot.name).head? := List.head?_filter.symm
  rcases hmembers.isFilled hnodup hslot with ⟨v, hv, hone⟩ | ⟨hmay, hnil⟩
  · exact .inl ⟨v, hv, by simp [hfind, hone]⟩
  · exact .inr ⟨hmay, by simp [hfind, hnil]⟩

theorem Fits.required {a : α} (h : r.Fits (.required name Writes a)) (hread : Understands read Writes) :
    r.required name read = some a := by
  rcases h with ⟨v, hv, hgiven⟩ | ⟨hmay, -⟩
  · change r.presence name = _ at hgiven
    rw [Record.required, hgiven]
    exact hread a v hv
  · exact hmay.elim

theorem Fits.optional {a : Option α} (h : r.Fits (.optional name Writes a)) (hread : Understands read Writes)
    (hnull : read .null = none) : r.optional name read = some a := by
  rcases h with ⟨v, hv, hgiven⟩ | ⟨hmay, habsent⟩
  · change r.presence name = _ at hgiven
    rw [Record.optional, hgiven]
    cases a with
    | none =>
      cases (hv : v = .null)
      rfl
    | some a =>
      have ha : read v = some a := hread a v hv
      have hne : v ≠ .null := by
        rintro rfl
        cases hnull.symm.trans ha
      simp [ha]
  · change r.presence name = _ at habsent
    change a = none at hmay
    rw [Record.optional, habsent, hmay]

theorem Fits.defaulted {a default : α} (h : r.Fits (.defaulted name Writes default a))
    (hread : Understands read Writes) : r.defaulted name read default = some a := by
  rcases h with ⟨v, hv, hgiven⟩ | ⟨hmay, habsent⟩
  · change r.presence name = _ at hgiven
    rw [Record.defaulted, hgiven]
    exact hread a v hv
  · change r.presence name = _ at habsent
    change a = default at hmay
    rw [Record.defaulted, habsent, hmay]

theorem understands_object {fields : List String} {slots : α → List Slot} {make? : Record → Option α}
    (hnames : ∀ a, (slots a).map Slot.name = fields) (hnodup : fields.Nodup)
    (hmake : ∀ a r, (∀ slot ∈ slots a, Fits r slot) → make? r = some a) :
    Understands (fun v => ofValue? fields v >>= make?) fun a => WritesObject (slots a) := by
  intro a v h
  obtain ⟨r, hr, hfits⟩ := ofValue?_of_writes h ((hnames a).symm ▸ hnodup)
  rw [hnames a] at hr
  exact Option.bind_eq_some_iff.2 ⟨r, hr, hmake a r hfits⟩

/-! What must be so of an object that is read as a record. -/

theorem exists_make {fields : List String} {make? : Record → Option α} (h : (ofValue? fields v >>= make?).isSome) :
    ∃ r a, ofValue? fields v = some r ∧ make? r = some a := by
  obtain ⟨a, ha⟩ := Option.isSome_iff_exists.1 h
  obtain ⟨r, hr, hmake⟩ := Option.bind_eq_some_iff.1 ha
  exact ⟨r, a, hr, hmake⟩

/-- A member of the record that stands in the object twice. -/
def Repeats (fields : List String) (members : List (Literal × Value)) : Prop :=
  ∃ f ∈ fields, ∃ a b, [(some f, a), (some f, b)].Sublist members

theorem ofValue?_of_repeats {fields : List String} (h : Repeats fields members) :
    ofValue? fields (.object members) = none := by
  obtain ⟨f, hf, a, b, hsub⟩ := h
  refine if_neg fun hall => ?_
  have honce := List.all_eq_true.1 (Bool.and_eq_true_iff.1 hall).2 f hf
  have htwice : 2 ≤ (members.filter fun m => m.1 = some f).length := by
    simpa using (hsub.filter fun m => m.1 = some f).length_le
  exact Nat.not_succ_le_self 1 (Nat.le_trans htwice (of_decide_eq_true honce))

theorem presence_of_mem {fields : List String} (h : ofValue? fields (.object members) = some r) {f : String}
    (hf : f ∈ fields) (hm : (some f, v) ∈ members) : r.presence f = .given v := by
  obtain ⟨hall, he⟩ := Option.ite_none_right_eq_some.1 h
  cases he
  have honce := List.all_eq_true.1 (Bool.and_eq_true_iff.1 hall).2 f hf
  have hmem : (some f, v) ∈ members.filter fun m => m.1 = some f := List.mem_filter.2 ⟨hm, decide_eq_true rfl⟩
  have hone : (members.filter fun m => m.1 = some f) = [(some f, v)] := by
    cases hfilter : members.filter fun m => m.1 = some f with
    | nil =>
      rw [hfilter] at hmem
      cases hmem
    | cons m rest =>
      rw [hfilter] at hmem honce
      have hrest : rest = [] := List.length_eq_zero_iff.1 (by simpa using honce)
      subst hrest
      rw [List.mem_singleton.1 hmem]
  have hfind : (members.find? fun m => m.1 = some f) = (members.filter fun m => m.1 = some f).head? :=
    List.head?_filter.symm
  simp [hfind, hone]

theorem isSome_of_defaulted {f : String} {default as : List α} {items : List Value}
    (h : r.defaulted f (Value.list? read) default = some as) (hgiven : r.presence f = .given (.array items))
    (hv : v ∈ items) : (read v).isSome := by
  rw [Record.defaulted, hgiven] at h
  exact Value.isSome_of_list? (Option.isSome_of_eq_some h) hv

theorem isSome_of_optional {f : String} {a : Option α} (h : r.optional f read = some a)
    (hgiven : r.presence f = .given v) (hne : v ≠ .null) : (read v).isSome := by
  rw [Record.optional, hgiven] at h
  cases hread : read v with
  | none => simp [hread] at h
  | some a => rfl

end Record

end CrateYard.Json
