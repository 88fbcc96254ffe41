import AliasHoist.Text.Alphabetic
import AliasHoist.Text.Numeric
import AliasHoist.Text.Uppercase

/-!
# Identifiers and their case

Alias names are made of the identifiers they stand for: `http_options` gives `HttpOptions`.

## Main Definitions

* `isValidIdentifier`: letters, digits, `_` and `$`, with no digit in front;
* `collapseUnderscores`: an underscore in front of a letter is dropped and the letter upper-cased;
* `pascalCase`: the collapsed text with its first character upper-cased.

## Design Notes

Letters are the characters with the Unicode property `Alphabetic`, digits those with a numeric
general category, and upper-casing is the full mapping, which may turn one character into several.
-/

namespace AliasHoist

open Text

/-- Whether a character may start an identifier. -/
def startsIdentifier (c : Char) : Bool := isAlphabetic c || c == '_' || c == '$'

/-- Whether a character may continue an identifier. -/
def continuesIdentifier (c : Char) : Bool := isAlphabetic c || isNumeric c || c == '_' || c == '$'

/-- Whether a text is an identifier. -/
def isValidIdentifier (name : String) : Bool :=
  match name.toList with
  | [] => false
  | first :: rest => startsIdentifier first && rest.all continuesIdentifier

/-- **Underscores in front of letters removed**, and the letters upper-cased.  An underscore in
front of anything else, another underscore included, stays. -/
def collapseUnderscores : List Char → List Char
  | [] => []
  | [c] => [c]
  | c :: next :: rest =>
      if c = '_' ∧ isAlphabetic next then uppercase next ++ collapseUnderscores rest
      else c :: collapseUnderscores (next :: rest)

/-- A text with its first character upper-cased. -/
def capitalize : List Char → List Char
  | [] => []
  | first :: rest => uppercase first ++ rest

/-- **The Pascal-case form of a name.** -/
def pascalCase (name : String) : String :=
  String.ofList (capitalize (collapseUnderscores name.toList))

@[simp] theorem collapseUnderscores_nil : collapseUnderscores [] = [] := rfl

@[simp] theorem collapseUnderscores_singleton (c : Char) : collapseUnderscores [c] = [c] := rfl

end AliasHoist
