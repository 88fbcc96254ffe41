import AliasHoist.Json.Decode
import AliasHoist.Tree.Forest

/-!
# Forests as JSON

A forest is stored as an object with a parse under every key: whether the source has syntax errors,
and the table of the nodes.  A row of the table is an array: the row of the parent, the field, the
kind, one or zero for named or not, and the bytes where the node starts and ends.
-/

namespace AliasHoist

/-- A value that may be missing. -/
def optional {α : Type} (decode : Json.Decoder α) : Json.Decoder (Option α)
  | .null => .ok none
  | value => (decode value).map some

namespace RawRow

/-- Reads a row of a node table. -/
def decode : Json.Decoder RawRow
  | .array [parent, field, kind, named, start, stop] => do
      let parent ← optional Json.natural parent
      let field ← optional Json.text field
      let kind ← Json.text kind
      let named ← Json.natural named
      let startByte ← Json.natural start
      let stopByte ← Json.natural stop
      return { parent, node := { kind, named := named != 0, field, startByte, stopByte } }
  | value => .error (Json.unexpected value "a row of six")

end RawRow

namespace StoredParse

/-- Reads a stored parse. -/
def decode : Json.Decoder StoredParse
  | .object members => do
      let hasErrors ← Json.requiredField members "has_error" Json.bool
      let rows ← Json.requiredField members "nodes" (Json.listOf RawRow.decode)
      match RawTree.ofRows? rows.toArray with
      | some tree => return { hasErrors, tree }
      | none => throw (.invalidLength 0 "a node")
  | value => .error (Json.unexpected value "a parse")

end StoredParse

namespace Forest

/-- **Reads a forest.** -/
def decode : Json.Decoder Forest := fun value => do
  return { parses := ← Json.mapOf StoredParse.decode value }

end Forest

end AliasHoist
