/-! Language editions. -/

namespace CrateYard

inductive Edition where
  | e2015
  | e2018
  | e2021
  | e2024
deriving DecidableEq, Repr, Inhabited

namespace Edition

/-- The oldest edition, which a package has when it names none. -/
def oldest : Edition := .e2015

def text : Edition → String
  | .e2015 => "2015"
  | .e2018 => "2018"
  | .e2021 => "2021"
  | .e2024 => "2024"

def ofText? : String → Option Edition
  | "2015" => some .e2015
  | "2018" => some .e2018
  | "2021" => some .e2021
  | "2024" => some .e2024
  | _ => none

/-- The edition that a document names; the oldest one where it names none that is known. -/
def ofDocument (raw : Option String) : Edition :=
  (raw.bind ofText?).getD oldest

theorem ofText?_text (e : Edition) : ofText? e.text = some e := by
  cases e <;> rfl

theorem ofText?_eq_some {s : String} {e : Edition} (h : ofText? s = some e) : s = e.text := by
  unfold ofText? at h
  split at h
  all_goals cases h <;> rfl

end Edition
end CrateYard
