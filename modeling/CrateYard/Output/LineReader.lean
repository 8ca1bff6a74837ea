import CrateYard.Text.Utf8

/-! Lines from bytes that arrive in chunks. A line feed, a carriage return, and a carriage return with the line
feed behind it each end one line, also when a chunk ends between the two. -/

namespace CrateYard.Output

structure LineReader where
  /-- The bytes of the line that has not ended. -/
  pending : Array UInt8
  /-- The last byte was a carriage return, which has ended a line. -/
  afterReturn : Bool
deriving Repr, DecidableEq

namespace LineReader

def empty : LineReader := ⟨#[], false⟩

instance : Inhabited LineReader := ⟨empty⟩

def lineFeed : UInt8 := 10

def carriageReturn : UInt8 := 13

def line (b : LineReader) : String :=
  String.ofList (Text.Utf8.decode b.pending.toList)

/-- One byte: the reader after it, and the line that it ends. -/
def step (b : LineReader) (byte : UInt8) : LineReader × Option String :=
  if byte = lineFeed then
    if b.afterReturn then ({ b with afterReturn := false }, none) else (⟨#[], false⟩, some b.line)
  else if byte = carriageReturn then (⟨#[], true⟩, some b.line)
  else (⟨b.pending.push byte, false⟩, none)

/-- Bytes one after the other: the reader after them, and the lines that they end. -/
def read (b : LineReader) : List UInt8 → LineReader × List String
  | [] => (b, [])
  | byte :: rest =>
    let (b, line) := b.step byte
    let (b, lines) := b.read rest
    (b, line.toList ++ lines)

/-- The end of the bytes: the reader is empty after it, and what had not ended is a last line. -/
def finish (b : LineReader) : LineReader × Option String :=
  (empty, if b.pending.isEmpty then none else some b.line)

end LineReader
end CrateYard.Output
