import CrateYard.Json.Record
import CrateYard.Proofs.Json.RoundTrip
import Mathlib.Data.List.Nodup

/-! Writing and reading that belong together. What is written holds no numbers and is read as what it was; then the text
is read as what it was too. Lists, options and records keep this. -/

namespace CrateYard.Json

variable {α β : Type} {write : α → Value} {read : Value → Option α}

def encode (write : α → Value) (a : α) : String :=
  (write a).compact

def decode? (read : Value → Option α) (text : String) : Option α :=
  (Value.parse? text).bind read

structure Faithful (write : α → Value) (read : Value → Option α) : Prop where
  isPlain : ∀ a, (write a).IsPlain
  read_write : ∀ a, read (write a) = some a

/-- What is written is read back, as a document and as a text; and whatever was accepted, writing what it gave and
reading that again changes nothing. -/
structure ReadsBack (write : α → Value) (read : Value → Option α) : Prop where
  document : ∀ a, read (write a) = some a
  text : ∀ a, decode? read (encode write a) = some a
  document_again : ∀ v, ((read v).map write).bind read = read v
  text_again : ∀ s, ((decode? read s).map (encode write)).bind (decode? read) = decode? read s

theorem bind_map_of_bind {f : α → β} {g : β → Option α} (h : ∀ a, g (f a) = some a) (x : Option α) :
    (x.map f).bind g = x := by
  cases x with
  | none => rfl
  | some a => exact h a

theorem Faithful.decode?_encode (h : Faithful write read) (a : α) : decode? read (encode write a) = some a := by
  rw [decode?, encode, Value.parse?_compact (h.isPlain a), Option.bind_some, h.read_write]

theorem Faithful.readsBack (h : Faithful write read) : ReadsBack write read where
  document := h.read_write
  text := h.decode?_encode
  document_again v := bind_map_of_bind h.read_write (read v)
  text_again s := bind_map_of_bind h.decode?_encode (decode? read s)

namespace Value.IsPlain

theorem text (s : String) : (Value.text s).IsPlain :=
  .string (some s)

theorem record {fields : List (String × Value)} (h : ∀ f ∈ fields, f.2.IsPlain) : (Value.record fields).IsPlain := by
  apply IsPlain.object
  intro m hm
  obtain ⟨f, hf, rfl⟩ := List.mem_map.1 hm
  exact h f hf

theorem tagged {tag : String} {content : Value} (h : content.IsPlain) : (Value.tagged tag content).IsPlain :=
  record fun f hf => by
    rw [List.mem_singleton.1 hf]
    exact h

theorem ofOption {f : α → Value} (h : ∀ a, (f a).IsPlain) : ∀ a : Option α, (Value.ofOption f a).IsPlain
  | none => .null
  | some a => h a

theorem ofList {f : α → Value} (h : ∀ a, (f a).IsPlain) (items : List α) : (Value.ofList f items).IsPlain := by
  apply IsPlain.array
  intro v hv
  obtain ⟨a, -, rfl⟩ := List.mem_map.1 hv
  exact h a

end Value.IsPlain

@[simp] theorem Value.case?_tagged (tag : String) (content : Value) :
    (Value.tagged tag content).case? = some (tag, some content) :=
  rfl

theorem Value.text_ne_null (s : String) : Value.text s ≠ .null :=
  nofun

theorem Faithful.text : Faithful Value.text Value.text? :=
  ⟨Value.IsPlain.text, fun _ => rfl⟩

theorem Faithful.bool : Faithful Value.bool Value.bool? :=
  ⟨Value.IsPlain.bool, fun _ => rfl⟩

theorem Faithful.ofList (h : Faithful write read) : Faithful (Value.ofList write) (Value.list? read) where
  isPlain := Value.IsPlain.ofList h.isPlain
  read_write items := by
    rw [Value.ofList, Value.list?]
    induction items with
    | nil => rfl
    | cons a rest ih => rw [List.map_cons, List.mapM_cons, h.read_write, ih]; rfl

namespace Record

variable {fields : List (String × Value)} {r : Record}

/-- Every listed field is given with its value. -/
def Gives (r : Record) (fields : List (String × Value)) : Prop :=
  ∀ f ∈ fields, r.presence f.1 = .given f.2

theorem find?_name {members : List (Literal × Value)} (hnodup : (members.map Prod.fst).Nodup) {m : Literal × Value}
    (hm : m ∈ members) : (members.find? fun other => other.1 = m.1) = some m := by
  induction members with
  | nil => cases hm
  | cons other rest ih =>
    obtain ⟨hother, hrest⟩ := List.nodup_cons.1 hnodup
    rcases List.mem_cons.1 hm with rfl | hm
    · simp
    · have hne : other.1 ≠ m.1 := fun h => hother (h ▸ List.mem_map_of_mem hm)
      rw [List.find?_cons_of_neg (by simpa using hne), ih hrest hm]

theorem length_filter_name {members : List (Literal × Value)} (hnodup : (members.map Prod.fst).Nodup)
    (name : Literal) : (members.filter fun m => m.1 = name).length ≤ 1 := by
  have hcount := List.nodup_iff_count_le_one.1 hnodup name
  rw [List.count, List.countP_map, List.countP_eq_length_filter] at hcount
  simpa only [Function.comp_def, beq_eq_decide] using hcount

/-- An object with texts for names, all different, is a record that gives its members, whatever their order. -/
theorem ofMembers?_of_nodup (names : List String) {members : List (Literal × Value)} (htext : ∀ m ∈ members, m.1.isSome)
    (hnodup : (members.map Prod.fst).Nodup) :
    ∃ r, ofMembers? names members = some r ∧ ∀ f v, (some f, v) ∈ members → r.presence f = .given v := by
  have hall : (members.all fun m => m.1.isSome) = true := List.all_eq_true.2 htext
  have honce : (names.all fun f => (members.filter fun m => m.1 = some f).length ≤ 1) = true :=
    List.all_eq_true.2 fun f _ => decide_eq_true (length_filter_name hnodup (some f))
  refine ⟨_, if_pos (by rw [hall, honce]; rfl), fun field v hm => ?_⟩
  simp [find?_name hnodup hm]

theorem ofObject?_record (names : List String) (hnodup : (fields.map Prod.fst).Nodup) :
    ∃ r, ofObject? names (.record fields) = some r ∧ r.Gives fields := by
  have hnames : ((fields.map fun f => ((some f.1 : Literal), f.2)).map Prod.fst).Nodup := by
    have := hnodup.map fun _ _ => Option.some.inj
    rwa [List.map_map] at this ⊢
  have htext : ∀ m ∈ fields.map (fun f => ((some f.1 : Literal), f.2)), m.1.isSome := by
    intro m hm
    obtain ⟨f, -, rfl⟩ := List.mem_map.1 hm
    rfl
  obtain ⟨r, hr, hgives⟩ := ofMembers?_of_nodup names htext hnames
  exact ⟨r, hr, fun f hf => hgives f.1 f.2 (List.mem_map_of_mem hf)⟩

variable {b : β} {make? : Record → Option β}

theorem bind_ofValue?_record {names : List String} (hnodup : (fields.map Prod.fst).Nodup)
    (h : ∀ r, Gives r fields → make? r = some b) : (ofValue? names (.record fields) >>= make?) = some b := by
  obtain ⟨r, hr, hgives⟩ := ofObject?_record names hnodup
  have hvalue : ofValue? names (.record fields) = some r := hr
  rw [hvalue, Option.bind_eq_bind, Option.bind_some, h r hgives]

theorem bind_ofContent?_record {names : List String} {form : Form} (hnodup : (fields.map Prod.fst).Nodup)
    (h : ∀ r, Gives r fields → make? r = some b) : (ofContent? form names (.record fields) >>= make?) = some b := by
  cases form <;> exact bind_ofValue?_record hnodup h

theorem Gives.required (h : r.Gives fields) {field : String} {a : α} (hread : Faithful write read)
    (hm : (field, write a) ∈ fields) : r.required field read = some a := by
  rw [Record.required, h _ hm]
  exact hread.read_write a

theorem Gives.optional (h : r.Gives fields) {field : String} {a : Option α} (hread : Faithful write read)
    (hnull : ∀ a, write a ≠ .null) (hm : (field, Value.ofOption write a) ∈ fields) :
    r.optional field read = some a := by
  rw [Record.optional, h _ hm]
  cases a with
  | none => rfl
  | some a => simp [Value.ofOption, hread.read_write, hnull]

end Record

end CrateYard.Json
