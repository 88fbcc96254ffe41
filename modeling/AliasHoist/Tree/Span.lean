import AliasHoist.Text.Utf8

/-!
# Positions and spans

A span is the part of a source that a node covers, given twice: as byte offsets, which edits use,
and as positions, which people read.  Lines and columns of positions count from one.
-/

namespace AliasHoist

/-- A line and a byte column, both counted from one. -/
structure Position where
  line : Nat
  column : Nat
  deriving DecidableEq, Repr

/-- The position of a byte offset in a source. -/
def Position.ofOffset (source : List Char) (offset : Nat) : Position :=
  let (line, column) := Text.lineColumn offset source
  { line := line + 1, column := column + 1 }

/-- The part of a source that a node covers. -/
structure Span where
  start : Position
  stop : Position
  startByte : Nat
  stopByte : Nat
  deriving DecidableEq, Repr

namespace Span

/-- The span between two byte offsets of a source. -/
def ofOffsets (source : List Char) (startByte stopByte : Nat) : Span where
  start := .ofOffset source startByte
  stop := .ofOffset source stopByte
  startByte := startByte
  stopByte := stopByte

@[simp] theorem ofOffsets_startByte (source : List Char) (a b : Nat) :
    (ofOffsets source a b).startByte = a := rfl

@[simp] theorem ofOffsets_stopByte (source : List Char) (a b : Nat) :
    (ofOffsets source a b).stopByte = b := rfl

/-- A span is multiline when it ends on a later line than it starts. -/
def isMultiline (span : Span) : Bool := span.start.line < span.stop.line

/-- Whether the bytes of one span lie within another. -/
def contains (outer inner : Span) : Bool :=
  outer.startByte ≤ inner.startByte && inner.stopByte ≤ outer.stopByte

end Span

end AliasHoist
