/-! Text from bytes. What is not UTF-8 becomes U+FFFD, one for each maximal invalid part: the longest start of
a well-formed sequence, or a single byte that starts none. Decoding takes one byte at a time. -/

namespace CrateYard.Text.Utf8

/-- A sequence that has begun: its bits so far, how many bytes follow, and the bounds of the next one. -/
structure Pending where
  bits : Nat
  left : Nat
  low : Nat
  high : Nat
deriving DecidableEq, Repr

def replacement : Char := '\uFFFD'

/-- A byte where a sequence may begin. -/
def begin (b : UInt8) : List Char × Option Pending :=
  let n := b.toNat
  if n < 0x80 then ([Char.ofNat n], none)
  else if 0xC2 ≤ n && n ≤ 0xDF then ([], some ⟨n - 0xC0, 1, 0x80, 0xBF⟩)
  else if n = 0xE0 then ([], some ⟨0, 2, 0xA0, 0xBF⟩)
  else if n = 0xED then ([], some ⟨0xD, 2, 0x80, 0x9F⟩)
  else if 0xE1 ≤ n && n ≤ 0xEF then ([], some ⟨n - 0xE0, 2, 0x80, 0xBF⟩)
  else if n = 0xF0 then ([], some ⟨0, 3, 0x90, 0xBF⟩)
  else if 0xF1 ≤ n && n ≤ 0xF3 then ([], some ⟨n - 0xF0, 3, 0x80, 0xBF⟩)
  else if n = 0xF4 then ([], some ⟨4, 3, 0x80, 0x8F⟩)
  else ([replacement], none)

/-- The next byte: the characters it completes and the sequence it leaves open. -/
def step : Option Pending → UInt8 → List Char × Option Pending
  | none, b => begin b
  | some p, b =>
    if p.low ≤ b.toNat && b.toNat ≤ p.high then
      let bits := p.bits * 64 + (b.toNat - 0x80)
      if p.left = 1 then ([Char.ofNat bits], none) else ([], some ⟨bits, p.left - 1, 0x80, 0xBF⟩)
    else
      let (chars, open_) := begin b
      (replacement :: chars, open_)

/-- Decoding with a sequence that has begun. -/
def decodeFrom : Option Pending → List UInt8 → List Char
  | none, [] => []
  | some _, [] => [replacement]
  | p, b :: rest =>
    let (chars, p) := step p b
    chars ++ decodeFrom p rest

def decode (bytes : List UInt8) : List Char :=
  decodeFrom none bytes

/-- The text whose bytes these are, if there is one. -/
def decode? (bytes : List UInt8) : Option String :=
  String.fromUTF8? ⟨bytes.toArray⟩

def encode (s : String) : List UInt8 :=
  s.toUTF8.toList

end CrateYard.Text.Utf8
