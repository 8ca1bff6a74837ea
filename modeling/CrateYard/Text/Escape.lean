import CrateYard.Text.Split

/-! Terminal escapes in output: the code that erases a line, written when a progress bar is drawn again, and
control sequences such as colours. -/

namespace CrateYard.Text

def esc : Char := '\x1b'

/-- Erases to the end of the line. -/
def eraseLine : List Char := [esc, '[', 'K']

/-- What follows the last erase code, if there is one. -/
def afterErase? : List Char → Option (List Char)
  | [] => none
  | c :: rest =>
    match afterErase? rest with
    | some text => some text
    | none => dropPrefix? eraseLine (c :: rest)

/-- The text that a redrawn line leaves visible: what follows the last erase code. -/
def afterErase (text : List Char) : List Char :=
  (afterErase? text).getD text

/-- A character that may stand between the bracket and the letter of a control sequence. -/
def isParameter (c : Char) : Bool :=
  c.isDigit || c = ';' || c = '?'

/-- `stripSequences` behind the start `held` of what may become a control sequence. -/
def stripFrom : (held : List Char) → List Char → List Char
  | held, [] => held
  | held, c :: rest =>
    if c = esc then held ++ stripFrom [c] rest
    else match held with
      | [] => c :: stripFrom [] rest
      | [_] => if c = '[' then stripFrom (held ++ [c]) rest else held ++ c :: stripFrom [] rest
      | _ =>
        if isParameter c then stripFrom (held ++ [c]) rest
        else if c.isAlpha then stripFrom [] rest
        else held ++ c :: stripFrom [] rest

/-- The text without its control sequences: an escape character, a bracket, parameters and a letter. -/
def stripSequences (text : List Char) : List Char :=
  stripFrom [] text

end CrateYard.Text
