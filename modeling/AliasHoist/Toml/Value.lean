/-!
# TOML values

The values of the TOML data format.  Tables keep the order of their entries.

## Main Definitions

* `Toml.Value`: a value of a document;
* `Toml.TableOrigin`: how a table came to be, which decides whether it can be added to.
-/

namespace AliasHoist.Toml

/-- How a table came to be. -/
inductive TableOrigin where
  /-- It has a header of its own, or is the document. -/
  | header
  /-- It was only named on the way to the table of a header. -/
  | implied
  /-- It was named by a dotted key. -/
  | dotted
  deriving DecidableEq, Repr

/-- **A TOML value.** -/
inductive Value where
  | text (value : String)
  | integer (value : Int)
  | float (value : Float)
  | bool (value : Bool)
  /-- A date, a time, or both. -/
  | dateTime
  | array (items : List Value)
  /-- A table between braces, which nothing can be added to. -/
  | inlineTable (entries : List (String × Value))
  | table (origin : TableOrigin) (entries : List (String × Value))
  /-- The tables under headers with double brackets. -/
  | tables (elements : List (List (String × Value)))

/-- The entries of a table. -/
abbrev Entries := List (String × Value)

namespace Entries

/-- The entries with the value of a key replaced. -/
def replace (entries : Entries) (key : String) (value : Value) : Entries :=
  entries.map fun entry => if entry.1 == key then (key, value) else entry

/-- The entries without a key. -/
def erase (entries : Entries) (key : String) : Entries := entries.filter (·.1 != key)

/-- **The entries after a change to the table at the end of a path.**  Tables that are not there yet
are made.  A path leads into the last of several tables; it does not lead through other values, and
a dotted key does not lead into a table with a header. -/
def change (dotted : Bool) (f : TableOrigin → Entries → Option Entries) (origin : TableOrigin)
    (entries : Entries) : List String → Option Entries
  | [] => f origin entries
  | key :: rest =>
      match entries.lookup key with
      | none => do
          let made : TableOrigin := if dotted then .dotted else .implied
          let inner ← change dotted f made [] rest
          return entries ++ [(key, .table made inner)]
      | some (.table inside inner) =>
          if dotted && inside == .header then none
          else do
            let inner ← change dotted f inside inner rest
            return replace entries key (.table inside inner)
      | some (.tables elements) =>
          match elements.getLast? with
          | none => none
          | some last => do
              let inner ← change dotted f .header last rest
              return replace entries key (.tables (elements.dropLast ++ [inner]))
      | some _ => none

/-- The entries with a key given a value.  The table of a plain key may not be a dotted one, and
that of a dotted key has to be. -/
def assign (entries : Entries) (path : List String) (key : String) (value : Value) :
    Option Entries :=
  let put (origin : TableOrigin) (entries : Entries) : Option Entries :=
    if (origin == .dotted) == path.isEmpty then none
    else if (entries.lookup key).isSome then none
    else some (entries ++ [(key, value)])
  change true put .header entries path

/-- The entries with the table of a header.  A table that was implied before moves to the end. -/
def openTable (entries : Entries) (path : List String) (key : String) : Option Entries :=
  let put (_ : TableOrigin) (entries : Entries) : Option Entries :=
    match entries.lookup key with
    | none => some (entries ++ [(key, .table .header [])])
    | some (.table .implied inner) => some (erase entries key ++ [(key, .table .header inner)])
    | some _ => none
  change false put .header entries path

/-- The entries with one more table under a header with double brackets. -/
def openElement (entries : Entries) (path : List String) (key : String) : Option Entries :=
  let put (_ : TableOrigin) (entries : Entries) : Option Entries :=
    match entries.lookup key with
    | none => some (entries ++ [(key, .tables [[]])])
    | some (.tables elements) => some (replace entries key (.tables (elements ++ [[]])))
    | some _ => none
  change false put .header entries path

end Entries

end AliasHoist.Toml
