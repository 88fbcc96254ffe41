import AliasHoist.Text.Hex
import AliasHoist.Tree.Lower

/-!
# Stored parses

The grammar's parser is not part of this library.  A *forest* holds what it said about a number of
sources, and answers for it: a source is looked up by its dialect and a fingerprint of its text.

## Main Definitions

* `Parser`: a function from sources to syntax trees, which the rest of the library takes as given;
* `RawTree.ofRows?`: a raw tree from the table of its nodes;
* `Forest.parser`: the parser that looks its answers up.
-/

namespace AliasHoist

/-- Why a source has no syntax tree. -/
inductive ParseError where
  /-- The grammar of the dialect could not be loaded. -/
  | grammar (reason : String)
  /-- The parser gave no tree. -/
  | noTree
  deriving DecidableEq, Repr

namespace ParseError

/-- What the user is told. -/
def message : ParseError → String
  | grammar reason => "failed to load TypeScript grammar: " ++ reason
  | noTree => "tree-sitter returned no tree"

end ParseError

/-- **A parser**: it gives every source a tree, with or without errors in it, or fails. -/
def Parser : Type := String → Dialect → Except ParseError SyntaxTree

/-- A row of a node table: what the parser says about a node, and the row of its parent. -/
structure RawRow where
  parent : Option Nat
  node : RawNode
  deriving DecidableEq, Repr

namespace RawTree

/-- The trees found while a node table is read from its end: for every row above, the children
found for it, and the tree of the row that was read last. -/
structure Gathered where
  children : Array (List RawTree)
  last : Option RawTree

/-- Reads one row.  All rows below it have been read, so its children are complete. -/
def Gathered.add (row : RawRow) (index : Nat) (gathered : Gathered) : Gathered :=
  let tree := node row.node (gathered.children[index]?.getD [])
  { children := match row.parent with
      | some parent => gathered.children.modify parent (tree :: ·)
      | none => gathered.children
    last := some tree }

/-- The tree of a node table in which parents come before their children and the root is first. -/
def ofRows? (rows : Array RawRow) : Option RawTree :=
  (rows.toList.zipIdx.foldr (fun (row, index) => Gathered.add row index)
    { children := Array.replicate rows.size [], last := none }).last

end RawTree

/-- What the parser said about one source. -/
structure StoredParse where
  hasErrors : Bool
  tree : RawTree

/-- Parses by fingerprint. -/
structure Forest where
  parses : List (String × StoredParse)

namespace Forest

/-- One step of the fingerprint: the byte is mixed in and the result spread. -/
def mixByte (hash : UInt64) (byte : UInt8) : UInt64 := (hash ^^^ byte.toUInt64) * 0x100000001b3

/-- The 64-bit FNV-1a hash of a text. -/
def fingerprint (source : String) : UInt64 :=
  source.toUTF8.data.foldl mixByte 0xcbf29ce484222325

/-- The key under which the parse of a source is stored. -/
def key (source : String) (dialect : Dialect) : String :=
  dialect.label ++ ":" ++ String.ofList (Text.hexFixed 16 (fingerprint source).toNat)

/-- **The parser that answers from a forest.** -/
def parser (forest : Forest) : Parser := fun source dialect =>
  match forest.parses.lookup (key source dialect) with
  | some parse => .ok (.ofRaw source parse.tree parse.hasErrors)
  | none => .error .noTree

end Forest

end AliasHoist
