import AliasHoist.Toml.Scalar

/-!
# TOML documents

A document is a sequence of statements, one on each line: headers of tables and assignments.

## Main Definitions

* `readValue`: a value, with a bound on how deep it may be nested;
* `Statement`: a header or an assignment;
* `statements`: the statements of a text;
* `Document.parse?`: the entries of a document.

## Design Notes

A text that is no document has no entries at all; what exactly is wrong with it is not said.  Values
may be nested seventy-nine levels deep.
-/

namespace AliasHoist.Toml

/-! ## Keys -/

/-- A character of a key without quotes. -/
def isKeyChar (c : Char) : Bool :=
  c.isDigit || ('a' ≤ c && c ≤ 'z') || ('A' ≤ c && c ≤ 'Z') || c = '_' || c = '-'

/-- A key without dots. -/
def readSimpleKey : Reader String := fun cs =>
  match cs with
  | '"' :: rest =>
      (readBasic (rest.length + 1) [] rest).map fun (s, rest) => (String.ofList s, rest)
  | '\x27' :: rest => (readLiteral [] rest).map fun (s, rest) => (String.ofList s, rest)
  | cs =>
      match cs.takeWhile isKeyChar with
      | [] => none
      | name => some (String.ofList name, cs.drop name.length)

/-- A key, its parts separated by dots, with blanks around them and a bound on their number. -/
def readKey : Nat → Reader (List String)
  | 0, _ => none
  | bound + 1, cs => do
      let (first, rest) ← readSimpleKey (skipBlanks cs)
      match skipBlanks rest with
      | '.' :: rest => do
          let (others, rest) ← readKey bound rest
          return (first :: others, rest)
      | rest => return ([first], rest)

/-- The most parts that a key can have. -/
def mostKeyParts : Nat := 79

/-! ## Values -/

/-- The text after a comment. -/
def skipComment (cs : List Char) : Option (List Char) :=
  match cs with
  | '#' :: rest =>
      let after := rest.dropWhile isPlain
      if after.isEmpty || (afterNewline? after).isSome then some after else none
  | cs => some cs

/-- The text after blanks, comments and line ends. -/
def skipGaps : Nat → List Char → Option (List Char)
  | 0, cs => some cs
  | bound + 1, cs => do
      let rest ← skipComment (skipBlanks cs)
      match afterNewline? rest with
      | some rest => skipGaps bound rest
      | none => some rest

mutual

/-- **A value.**  The first bound counts the steps of reading, the second the levels of nesting that
are still allowed. -/
def readValue : Nat → Nat → Reader Value
  | 0, _, _ => none
  | bound + 1, depth, '[' :: rest =>
      match depth with
      | 0 => none
      | depth + 1 => (readItems bound depth rest).map fun (items, rest) => (.array items, rest)
  | bound + 1, depth, '\x7b' :: rest =>
      match depth with
      | 0 => none
      | depth + 1 =>
          match skipBlanks rest with
          | '\x7d' :: rest => some (.inlineTable [], rest)
          | rest =>
              (readPairs bound depth [] rest).map fun (entries, rest) =>
                (.inlineTable entries, rest)
  | _ + 1, _, cs => readScalar cs

/-- The items of an array, up to its end. -/
def readItems : Nat → Nat → Reader (List Value)
  | 0, _, _ => none
  | bound + 1, depth, cs => do
      match ← skipGaps cs.length cs with
      | ']' :: rest => return ([], rest)
      | cs =>
          let (item, rest) ← readValue bound depth cs
          match ← skipGaps rest.length rest with
          | ',' :: rest => do
              let (items, rest) ← readItems bound depth rest
              return (item :: items, rest)
          | ']' :: rest => return ([item], rest)
          | _ => none

/-- The entries of a table between braces, up to its end. -/
def readPairs : Nat → Nat → Entries → Reader Entries
  | 0, _, _, _ => none
  | bound + 1, depth, entries, cs => do
      let (path, rest) ← readKey mostKeyParts cs
      match path.getLast?, rest with
      | some key, '=' :: rest =>
          let (value, rest) ← readValue bound depth (skipBlanks rest)
          let entries ← entries.assign path.dropLast key value
          match skipBlanks rest with
          | ',' :: rest => readPairs bound depth entries rest
          | '\x7d' :: rest => return (entries, rest)
          | _ => none
      | _, _ => none

end

/-! ## Statements -/

/-- A line of a document. -/
inductive Statement where
  | table (path : List String)
  | element (path : List String)
  | assign (path : List String) (value : Value)

/-- The deepest nesting of a value. -/
def deepest : Nat := 79

/-- A header. -/
def readHeader : Reader Statement
  | '[' :: '[' :: rest => do
      let (path, rest) ← readKey mostKeyParts rest
      match rest with
      | ']' :: ']' :: rest => return (.element path, rest)
      | _ => none
  | '[' :: rest => do
      let (path, rest) ← readKey mostKeyParts rest
      match rest with
      | ']' :: rest => return (.table path, rest)
      | _ => none
  | _ => none

/-- An assignment. -/
def readAssignment : Reader Statement := fun cs => do
  let (path, rest) ← readKey mostKeyParts cs
  match rest with
  | '=' :: rest => do
      let rest := skipBlanks rest
      let (value, rest) ← readValue (rest.length + 1) deepest rest
      return (.assign path value, rest)
  | _ => none

/-- The statements of a text, with a bound on its lines. -/
def statementsFrom : Nat → List Char → Option (List Statement)
  | 0, _ => none
  | bound + 1, cs => do
      let rest ← skipComment (skipBlanks cs)
      match rest with
      | [] => return []
      | c :: others =>
          match afterNewline? rest with
          | some rest => statementsFrom bound rest
          | none => do
              let (statement, rest) ←
                if c = '[' then readHeader (c :: others) else readAssignment (c :: others)
              match ← skipComment (skipBlanks rest) with
              | [] => return [statement]
              | rest =>
                  let rest ← afterNewline? rest
                  return statement :: (← statementsFrom bound rest)

/-- **The statements of a text**, which may start with a byte order mark. -/
def statements (text : String) : Option (List Statement) :=
  match text.toList with
  | '\ufeff' :: cs => statementsFrom (cs.length + 1) cs
  | cs => statementsFrom (cs.length + 1) cs

/-! ## Documents -/

namespace Document

/-- The entries after some statements; assignments go to the table under the last header. -/
def build (entries : Entries) (current : List String) : List Statement → Option Entries
  | [] => some entries
  | .table path :: rest => do
      let key ← path.getLast?
      build (← entries.openTable path.dropLast key) path rest
  | .element path :: rest => do
      let key ← path.getLast?
      build (← entries.openElement path.dropLast key) path rest
  | .assign path value :: rest => do
      let key ← path.getLast?
      let put (_ : TableOrigin) (inner : Entries) : Option Entries :=
        inner.assign path.dropLast key value
      build (← Entries.change false put .header entries current) current rest

/-- **The entries of a document**, `none` when the text is no TOML. -/
def parse? (text : String) : Option Entries := do build [] [] (← statements text)

end Document

end AliasHoist.Toml
