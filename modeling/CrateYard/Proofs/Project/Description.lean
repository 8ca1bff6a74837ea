import CrateYard.Project.Compiler
import CrateYard.Proofs.Text.Layout
import Mathlib.Logic.Relation

/-! What a compiler says of itself. Its description is read from the values that the lines of a text give to three keys,
in their order, and from nothing else; so it is the same in any layout that keeps these. -/

namespace CrateYard

open Relation (EqvGen)
open Text (Laid Padded IsTrimmed)

namespace Channel

theorem not_nightly_of_beta {pre : String} (hbeta : "beta".toList <+: pre.toList) :
    ¬ "nightly".toList <+: pre.toList := by
  rintro ⟨rest, hnightly⟩
  obtain ⟨rest', hbeta⟩ := hbeta
  have hsame := hnightly.trans hbeta.symm
  simp at hsame

theorem ofPreRelease_iff (pre : String) :
    (ofPreRelease pre = .stable ↔ pre = "") ∧
    (ofPreRelease pre = .beta ↔ "beta".toList <+: pre.toList) ∧
    (ofPreRelease pre = .nightly ↔ "nightly".toList <+: pre.toList) := by
  simp only [ofPreRelease, String.isEmpty_iff, List.isPrefixOf_iff_prefix]
  split
  · next hempty =>
    subst hempty
    decide
  · next hpre =>
    split
    · next hbeta =>
      exact ⟨iff_of_false nofun hpre, iff_of_true rfl hbeta, iff_of_false nofun (not_nightly_of_beta hbeta)⟩
    · next hbeta =>
      split
      · next hnightly => exact ⟨iff_of_false nofun hpre, iff_of_false nofun hbeta, iff_of_true rfl hnightly⟩
      · next hnightly => exact ⟨iff_of_false nofun hpre, iff_of_false nofun hbeta, iff_of_false nofun hnightly⟩

end Channel

namespace Compiler

/-- A line of a key, a colon and a value. -/
def entry (key value : List Char) : List Char :=
  key ++ ':' :: value

/-- A line with a key before its first colon and a value behind it, each without the white space around it. -/
def Says (line : List Char) (key value : String) : Prop :=
  ∃ k v, line = entry k v ∧ ':' ∉ k ∧ (Padded key.toList k ∧ IsTrimmed key.toList) ∧
    Padded value.toList v ∧ IsTrimmed value.toList

def key? (line : List Char) : Option String :=
  (Text.splitOnce ':' line).map fun parts => String.ofList (Text.trim parts.1)

def readKeys : List String := ["release", "host", "commit-hash"]

/-- One change of layout: a line of another key or of none comes in, the lines change places but those of one key keep
their order, or a key and a value get white space around them. -/
inductive Relaid : List (List Char) → List (List Char) → Prop
  | insert (before after : List (List Char)) {line : List Char} (hkey : ∀ key ∈ readKeys, key? line ≠ some key) :
      Relaid (before ++ after) (before ++ line :: after)
  | reorder {lines lines' : List (List Char)} (hperm : lines.Perm lines')
      (hkeep : ∀ key, lines.filter (key? · = some key) = lines'.filter (key? · = some key)) : Relaid lines lines'
  | pad (before after : List (List Char)) {key key' value value' : List Char} (hcolon : ':' ∉ key)
      (hkey : Padded key key') (hvalue : Padded value value') :
      Relaid (before ++ entry key value :: after) (before ++ entry key' value' :: after)

/-- The last line that gives the key a value of those that count gives it this one. -/
def LastSays (lines : List (List Char)) (key : String) (counts : String → Prop) (value : String) : Prop :=
  ∃ before line after, lines = before ++ line :: after ∧ Says line key value ∧ counts value ∧
    ∀ later ∈ after, ∀ v, Says later key v → ¬ counts v

/-- What has been read of a description so far. -/
structure Notes where
  version : Option Version
  host : Option String
  commitHash : Option String

namespace Notes

def empty : Notes := ⟨none, none, none⟩

/-- One more line is read. A release takes the place of the one before it even if it is no version; a hash that is not
known does not. -/
def add (n : Notes) (line : List Char) : Notes :=
  match pair? line with
  | none => n
  | some (key, value) =>
    if key = "release" then { n with version := Version.parse? value }
    else if key = "host" then { n with host := some value }
    else if key = "commit-hash" ∧ value ≠ "unknown" then { n with commitHash := some value }
    else n

def compiler? (n : Notes) : Option Compiler := do
  let version ← n.version
  let host ← n.host
  return { version := version, channel := .ofPreRelease version.pre, host := host, commitHash := n.commitHash }

end Notes

variable {line : List Char} {lines lines' : List (List Char)} {text text' key value : String}

/-! A line. -/

theorem pair?_eq_some_iff : pair? line = some (key, value) ↔ Says line key value := by
  have htrim : ∀ (l : List Char) (s : String), String.ofList (Text.trim l) = s ↔
      Padded s.toList l ∧ IsTrimmed s.toList := fun l s => by
    rw [← Text.trim_eq_iff, ← String.toList_inj, String.toList_ofList]
  simp only [pair?, Option.map_eq_some_iff, Prod.mk.injEq, htrim]
  constructor
  · rintro ⟨⟨k, v⟩, hsplit, hkey, hvalue⟩
    obtain ⟨rfl, hcolon⟩ := Text.splitOnce_eq_some hsplit
    exact ⟨k, v, rfl, hcolon, hkey, hvalue⟩
  · rintro ⟨k, v, rfl, hcolon, hkey, hvalue⟩
    exact ⟨(k, v), Text.splitOnce_append_cons hcolon v, hkey, hvalue⟩

theorem key?_eq (line : List Char) : key? line = (pair? line).map (·.1) := by
  rw [key?, pair?, Option.map_map]
  rfl

theorem pair?_entry {key : List Char} (hcolon : ':' ∉ key) (value : List Char) :
    pair? (entry key value) = some (String.ofList (Text.trim key), String.ofList (Text.trim value)) := by
  rw [pair?, entry, Text.splitOnce_append_cons hcolon, Option.map_some]

theorem pair?_eq_none (hcolon : ':' ∉ line) : pair? line = none := by
  rw [pair?, Text.splitOnce_eq_none_iff.2 hcolon, Option.map_none]

theorem pair?_of_padded {key key' value value' : List Char} (hcolon : ':' ∉ key) (hkey : Padded key key')
    (hvalue : Padded value value') : pair? (entry key' value') = pair? (entry key value) := by
  rw [pair?_entry hcolon, pair?_entry (hkey.notMem (by decide) hcolon), hkey.trim_eq, hvalue.trim_eq]

/-- A carriage return at the end is white space behind the value, or stands in a line that has no key. -/
theorem pair?_append_return (line : List Char) : pair? (line ++ ['\r']) = pair? line := by
  cases hsplit : Text.splitOnce ':' line with
  | none =>
    have hcolon := Text.splitOnce_eq_none_iff.1 hsplit
    rw [pair?_eq_none hcolon, pair?_eq_none (by simp [hcolon])]
  | some parts =>
    obtain ⟨rfl, hcolon⟩ := Text.splitOnce_eq_some hsplit
    have hvalue : Padded parts.2 (parts.2 ++ ['\r']) := ⟨[], ['\r'], by decide, by decide, rfl⟩
    have hkey : Padded parts.1 parts.1 := ⟨[], [], by decide, by decide, by simp⟩
    rw [List.append_assoc, List.cons_append]
    exact pair?_of_padded hcolon hkey hvalue

def valueOf? (key : String) (line : List Char) : Option String :=
  ((pair? line).filter (·.1 = key)).map (·.2)

theorem valueOf?_eq_some_iff : valueOf? key line = some value ↔ Says line key value := by
  simp only [valueOf?, Option.map_eq_some_iff, Option.filter_eq_some_iff, ← pair?_eq_some_iff, decide_eq_true_eq]
  constructor
  · rintro ⟨⟨k, v⟩, ⟨hpair, rfl⟩, rfl⟩
    exact hpair
  · intro hpair
    exact ⟨(key, value), ⟨hpair, rfl⟩, rfl⟩

theorem valueOf?_eq_none (h : key? line ≠ some key) : valueOf? key line = none := by
  rw [key?_eq] at h
  cases hpair : pair? line with
  | none => rw [valueOf?, hpair]; rfl
  | some pair =>
    have hne : pair.1 ≠ key := fun heq => h (by rw [hpair, Option.map_some, heq])
    simp [valueOf?, hpair, hne]

theorem filterMap_filter_key (key : String) (lines : List (List Char)) :
    (lines.filter (key? · = some key)).filterMap (valueOf? key) = lines.filterMap (valueOf? key) := by
  rw [List.filterMap_filter]
  refine List.filterMap_congr fun line _ => ?_
  by_cases h : key? line = some key
  · simp [h]
  · simp [h, valueOf?_eq_none h]

/-! Lines of a text. -/

theorem filterMap_pair?_of_forall₂
    (h : List.Forall₂ (fun line read => line = read ∨ line = read ++ ['\r']) lines lines') :
    lines.filterMap pair? = lines'.filterMap pair? := by
  induction h with
  | nil => rfl
  | cons hline _ ih =>
    rw [List.filterMap_cons, List.filterMap_cons, ih]
    rcases hline with rfl | rfl
    · rfl
    · rw [pair?_append_return]

theorem pairs_of_laid (h : Laid lines text.toList) : pairs text = lines.filterMap pair? :=
  (filterMap_pair?_of_forall₂ h.forall₂_lines).symm

theorem valuesOf_of_laid (h : Laid lines text.toList) (key : String) :
    valuesOf key (pairs text) = lines.filterMap (valueOf? key) := by
  rw [pairs_of_laid h, valuesOf, List.filter_filterMap, List.map_filterMap]
  rfl

theorem parse?_congr (h : ∀ key ∈ readKeys, valuesOf key (pairs text) = valuesOf key (pairs text')) :
    parse? text = parse? text' := by
  simp only [readKeys, List.forall_mem_cons] at h
  obtain ⟨hrelease, hhost, hhash, -⟩ := h
  rw [parse?, parse?, hrelease, hhost, hhash]

/-! Layout. -/

theorem Relaid.filterMap_valueOf? (h : Relaid lines lines') {key : String} (hkey : key ∈ readKeys) :
    lines.filterMap (valueOf? key) = lines'.filterMap (valueOf? key) := by
  cases h with
  | insert before after hline =>
    rw [List.filterMap_append, List.filterMap_append, List.filterMap_cons, valueOf?_eq_none (hline key hkey)]
  | reorder _ hkeep => rw [← filterMap_filter_key, hkeep, filterMap_filter_key]
  | pad before after hcolon hk hv =>
    rw [List.filterMap_append, List.filterMap_append, List.filterMap_cons, List.filterMap_cons, valueOf?, valueOf?,
      pair?_of_padded hcolon hk hv]

theorem filterMap_valueOf?_of_eqvGen (h : EqvGen Relaid lines lines') {key : String} (hkey : key ∈ readKeys) :
    lines.filterMap (valueOf? key) = lines'.filterMap (valueOf? key) := by
  induction h with
  | rel _ _ h => exact h.filterMap_valueOf? hkey
  | refl _ => rfl
  | symm _ _ _ ih => exact ih.symm
  | trans _ _ _ _ _ ih ih' => exact ih.trans ih'

theorem parse?_of_relaid (h : Laid lines text.toList) (hsame : EqvGen Relaid lines lines')
    (h' : Laid lines' text'.toList) : parse? text' = parse? text :=
  parse?_congr fun key hkey => by
    rw [valuesOf_of_laid h, valuesOf_of_laid h', filterMap_valueOf?_of_eqvGen hsame hkey]

theorem Relaid.swap (before after : List (List Char)) {line line' : List Char} (hkey : key? line ≠ key? line') :
    Relaid (before ++ line :: line' :: after) (before ++ line' :: line :: after) := by
  refine .reorder ((List.Perm.swap line' line after).append_left before) fun key => ?_
  simp only [List.filter_append, List.filter_cons]
  by_cases h : key? line = some key
  · have h' : key? line' ≠ some key := fun heq => hkey (h.trans heq.symm)
    simp [h, h']
  · simp [h]

/-! One pass. -/

/-- The notes are the last value of each key, as far as it counts. -/
structure Notes.Of (n : Notes) (lines : List (List Char)) : Prop where
  version : n.version = (lines.filterMap (valueOf? "release")).getLast?.bind Version.parse?
  host : n.host = (lines.filterMap (valueOf? "host")).getLast?
  commitHash : n.commitHash = ((lines.filterMap (valueOf? "commit-hash")).filter (· ≠ "unknown")).getLast?

theorem getLast?_filterMap_concat {α β : Type} (f : α → Option β) (l : List α) (a : α) :
    ((l ++ [a]).filterMap f).getLast? = (f a).or (l.filterMap f).getLast? := by
  rw [List.filterMap_append, List.getLast?_append]
  cases h : f a <;> simp [h]

theorem valueOf?_of_pair {k v : String} (h : pair? line = some (k, v)) (key : String) :
    valueOf? key line = if k = key then some v else none := by
  by_cases hk : k = key <;> simp [valueOf?, h, hk]

theorem Notes.Of.add {n : Notes} (h : n.Of lines) (line : List Char) : (n.add line).Of (lines ++ [line]) := by
  obtain ⟨hversion, hhost, hhash⟩ := h
  rw [List.filter_filterMap] at hhash
  suffices hread : (n.add line).version = ((valueOf? "release" line).map Version.parse?).getD n.version ∧
      (n.add line).host = (valueOf? "host" line).or n.host ∧
      (n.add line).commitHash = ((valueOf? "commit-hash" line).filter (· ≠ "unknown")).or n.commitHash by
    obtain ⟨hversion', hhost', hhash'⟩ := hread
    refine ⟨?_, ?_, ?_⟩
    · rw [hversion', hversion, getLast?_filterMap_concat]
      cases valueOf? "release" line <;> rfl
    · rw [hhost', hhost, getLast?_filterMap_concat]
    · rw [hhash', hhash, List.filter_filterMap, getLast?_filterMap_concat]
  rw [Notes.add]
  cases hpair : pair? line with
  | none => simp [valueOf?, hpair]
  | some pair =>
    obtain ⟨k, v⟩ := pair
    simp only [valueOf?_of_pair hpair]
    by_cases hkrelease : k = "release"
    · simp [hkrelease]
    by_cases hkhost : k = "host"
    · simp [hkhost]
    by_cases hkhash : k = "commit-hash"
    · by_cases hknown : v = "unknown" <;> simp [hkhash, hknown, Option.filter_some]
    · simp [hkrelease, hkhost, hkhash]

theorem Notes.of_foldl (lines : List (List Char)) : (lines.foldl Notes.add .empty).Of lines := by
  induction lines using List.reverseRecOn with
  | nil => exact ⟨rfl, rfl, rfl⟩
  | append_singleton lines line ih => rw [List.foldl_append]; exact ih.add line

/-- Reading the lines one by one, with notes of what has been read, gives the description. -/
theorem parse?_eq_compiler? (h : Laid lines text.toList) :
    parse? text = (lines.foldl Notes.add .empty).compiler? := by
  obtain ⟨hversion, hhost, hhash⟩ := Notes.of_foldl lines
  rw [parse?, Notes.compiler?, hversion, hhost, hhash, valuesOf_of_laid h, valuesOf_of_laid h, valuesOf_of_laid h]

/-! The last line of a key. -/

theorem getLast?_filterMap_eq_some_iff {α β : Type} {f : α → Option β} {l : List α} {b : β} :
    (l.filterMap f).getLast? = some b ↔
      ∃ before a after, l = before ++ a :: after ∧ f a = some b ∧ ∀ x ∈ after, f x = none := by
  rw [List.getLast?_filterMap, List.findSome?_eq_some_iff]
  constructor
  · rintro ⟨after, a, before, hl, ha, hafter⟩
    refine ⟨before.reverse, a, after.reverse, ?_, ha, by simpa using hafter⟩
    rw [← List.reverse_inj, hl]
    simp
  · rintro ⟨before, a, after, rfl, ha, hafter⟩
    exact ⟨after.reverse, a, before.reverse, by simp, ha, by simpa using hafter⟩

theorem lastSays_iff {counts : String → Prop} [DecidablePred counts] :
    LastSays lines key counts value ↔
      ((lines.filterMap (valueOf? key)).filter (counts ·)).getLast? = some value := by
  rw [List.filter_filterMap, getLast?_filterMap_eq_some_iff]
  simp only [Option.filter_eq_some_iff, Option.filter_eq_none_iff, valueOf?_eq_some_iff]
  simp only [LastSays, decide_eq_true_eq, and_assoc]

theorem parse?_eq_some_iff (h : Laid lines text.toList) (c : Compiler) : parse? text = some c ↔
    (∃ release, LastSays lines "release" (fun _ => True) release ∧ Version.parse? release = some c.version) ∧
    LastSays lines "host" (fun _ => True) c.host ∧
    (∀ hash, c.commitHash = some hash ↔ LastSays lines "commit-hash" (· ≠ "unknown") hash) ∧
    c.channel = .ofPreRelease c.version.pre := by
  simp only [parse?, lastSays_iff, valuesOf_of_laid h, decide_true, List.filter_true]
  generalize (lines.filterMap (valueOf? "release")).getLast? = release
  generalize (lines.filterMap (valueOf? "host")).getLast? = host
  generalize ((lines.filterMap (valueOf? "commit-hash")).filter _).getLast? = hash
  constructor
  · intro hc
    obtain ⟨version, hversion, hc⟩ := Option.bind_eq_some_iff.1 hc
    obtain ⟨host, rfl, hc⟩ := Option.bind_eq_some_iff.1 hc
    cases hc
    exact ⟨Option.bind_eq_some_iff.1 hversion, rfl, fun _ => Iff.rfl, rfl⟩
  · rintro ⟨⟨release, rfl, hversion⟩, rfl, hhash, hchannel⟩
    obtain rfl : c.commitHash = hash := Option.ext fun a => hhash a
    rw [Option.bind_some, hversion, Option.bind_eq_bind, Option.bind_some, ← hchannel]
    rfl

theorem exists_lastSays_iff :
    (∃ value, LastSays lines key (fun _ => True) value) ↔ ∃ line ∈ lines, ∃ value, Says line key value := by
  simp only [lastSays_iff, decide_true, List.filter_true, ← valueOf?_eq_some_iff, ← Option.ne_none_iff_exists', ne_eq,
    List.getLast?_eq_none_iff, List.filterMap_eq_nil_iff, not_forall, exists_prop]

theorem isSome_parse?_iff (h : Laid lines text.toList) : (parse? text).isSome = true ↔
    (∃ release version, LastSays lines "release" (fun _ => True) release ∧ Version.parse? release = some version) ∧
    ∃ line ∈ lines, ∃ host, Says line "host" host := by
  rw [Option.isSome_iff_exists, ← exists_lastSays_iff]
  constructor
  · rintro ⟨c, hc⟩
    obtain ⟨⟨release, hrelease, hversion⟩, hhost, -⟩ := (parse?_eq_some_iff h c).1 hc
    exact ⟨⟨release, c.version, hrelease, hversion⟩, c.host, hhost⟩
  · rintro ⟨⟨release, version, hrelease, hversion⟩, host, hhost⟩
    exact ⟨⟨version, .ofPreRelease version.pre, host, _⟩,
      (parse?_eq_some_iff h _).2 ⟨⟨release, hrelease, hversion⟩, hhost, fun _ => lastSays_iff.symm, rfl⟩⟩

/-- The description of a text is what one pass over its lines notes, and it is the same in every layout of the lines,
whatever their ends. There is one exactly if the last line with a release gives a version and some line gives a host. It
names the last host and the last commit hash that is not `unknown`, and the channel that the version's pre-release
belongs to. -/
theorem described_by_last_lines (text : String) :
    Laid (Text.lines text.toList) text.toList ∧
    ∀ lines, Laid lines text.toList →
      parse? text = (lines.foldl Notes.add .empty).compiler? ∧
      (∀ lines' text', EqvGen Relaid lines lines' → Laid lines' text'.toList → parse? text' = parse? text) ∧
      ((parse? text).isSome = true ↔
        (∃ release version, LastSays lines "release" (fun _ => True) release ∧
          Version.parse? release = some version) ∧
        ∃ line ∈ lines, ∃ host, Says line "host" host) ∧
      ∀ c, parse? text = some c →
        (∃ release, LastSays lines "release" (fun _ => True) release ∧ Version.parse? release = some c.version) ∧
        LastSays lines "host" (fun _ => True) c.host ∧
        (∀ hash, c.commitHash = some hash ↔ LastSays lines "commit-hash" (· ≠ "unknown") hash) ∧
        (c.channel = .stable ↔ c.version.pre = "") ∧
        (c.channel = .beta ↔ "beta".toList <+: c.version.pre.toList) ∧
        (c.channel = .nightly ↔ "nightly".toList <+: c.version.pre.toList) := by
  refine ⟨Text.laid_lines _, fun lines h => ⟨parse?_eq_compiler? h,
    fun _ _ hsame h' => parse?_of_relaid h hsame h', isSome_parse?_iff h, fun c hc => ?_⟩⟩
  obtain ⟨hrelease, hhost, hhash, hchannel⟩ := (parse?_eq_some_iff h c).1 hc
  rw [hchannel]
  exact ⟨hrelease, hhost, hhash, Channel.ofPreRelease_iff c.version.pre⟩

/-- Two lines change places, one that has no key comes in, and the last release gets white space and another end. -/
theorem described_by_last_lines_relaid :
    let first := entry "release".toList " 1.0.0".toList
    let host := entry "host".toList "a".toList
    let remark := "rustc 1.80.0".toList
    let hashes := [entry "commit-hash".toList " 051".toList, entry "commit-hash".toList " unknown".toList]
    let lines := first :: host :: entry "release".toList " 1.80.0-beta.1".toList :: hashes
    let lines' := host :: first :: remark :: entry " release ".toList "\t 1.80.0-beta.1".toList :: hashes
    let text := "release: 1.0.0\r\nhost:a\nrelease: 1.80.0-beta.1\ncommit-hash: 051\ncommit-hash: unknown"
    let text' := "host:a\nrelease: 1.0.0\nrustc 1.80.0\n release :\t 1.80.0-beta.1\r\n" ++
      "commit-hash: 051\ncommit-hash: unknown\n"
    Laid lines text.toList ∧ EqvGen Relaid lines lines' ∧ Laid lines' text'.toList ∧
      parse? text = some ⟨⟨1, 80, 0, "beta.1", ""⟩, .beta, "a", some "051"⟩ ∧ parse? text' = parse? text ∧
      LastSays lines "host" (fun _ => True) "a" ∧ LastSays lines "commit-hash" (· ≠ "unknown") "051" := by
  intro first host remark hashes lines lines' text text'
  have hlaid : Laid lines text.toList := by
    have hlines : Text.lines text.toList = lines := by decide
    exact hlines ▸ Text.laid_lines text.toList
  have hlaid' : Laid lines' text'.toList := by
    have hlines : Text.lines text'.toList = lines' := by decide
    exact hlines ▸ Text.laid_lines text'.toList
  have hsame : EqvGen Relaid lines lines' := by
    let beta := entry "release".toList " 1.80.0-beta.1".toList
    have hswap : Relaid lines (host :: first :: beta :: hashes) := .swap [] (beta :: hashes) (by decide)
    have hinsert : Relaid (host :: first :: beta :: hashes) (host :: first :: remark :: beta :: hashes) :=
      .insert [host, first] (beta :: hashes) (by decide)
    have hpad : Relaid (host :: first :: remark :: beta :: hashes) lines' :=
      .pad [host, first, remark] hashes (by decide) ⟨[' '], [' '], by decide, by decide, by decide⟩
        ⟨['\t'], [], by decide, by decide, by decide⟩
    exact .trans _ _ _ (.rel _ _ hswap) (.trans _ _ _ (.rel _ _ hinsert) (.rel _ _ hpad))
  have hparse : parse? text = some ⟨⟨1, 80, 0, "beta.1", ""⟩, .beta, "a", some "051"⟩ := by decide
  obtain ⟨-, hread⟩ := described_by_last_lines text
  obtain ⟨-, hkeep, -, hdescribed⟩ := hread lines hlaid
  obtain ⟨-, hhost, hhash, -⟩ := hdescribed _ hparse
  exact ⟨hlaid, hsame, hlaid', hparse, hkeep lines' text' hsame hlaid', hhost, (hhash "051").1 rfl⟩

end Compiler

end CrateYard
