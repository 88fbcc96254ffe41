import AliasHoist.Json.Print
import AliasHoist.Json.Read
import AliasHoist.Proofs.Text.Digits
import Mathlib.Algebra.Group.Int.Defs

/-!
# Reading back what was printed

A value without decimals, with integers that fit into 64 bits, is read back from its printed form.
Printing is a recursion on values and reading a fold over tokens, so the two are related state by
state: what is printed for a value leads the reader from a state that waits for a value to the state
in which that value is complete.

## Main Definitions

* `Value.isStorable`: the values that are read back;
* `Leads`: from one state, a text leads to another state with the rest of the text;
* `AwaitsValue`: a state waits for a value inside some containers.

## Main Statements

* `readString_chars`, `readNumber_natDigits`: strings and numbers are read back;
* `leads_value`: what is printed for a value;
* `Document.ofText_pretty`: a value is read back from its printed form.
-/

namespace AliasHoist.Json

open Text

namespace Value

mutual

/-- **Whether a value is read back from its printed form**: it has no decimals, its
integers fit into 64 bits, and all of it could be read.  Decimals are left out since the
program writes none. -/
def isStorable : Value → Bool
  | number (.integer i) => -2 ^ 63 ≤ i && i < 2 ^ 64
  | number (.decimal _ _ _) => false
  | array items => areStorable items
  | object members => areStorableMembers members
  | brokenText | malformed => false
  | _ => true

/-- The same for all values of a list. -/
def areStorable : List Value → Bool
  | [] => true
  | item :: rest => isStorable item && areStorable rest

/-- The same for all members of an object. -/
def areStorableMembers : List (String × Value) → Bool
  | [] => true
  | (_, item) :: rest => isStorable item && areStorableMembers rest

end

end Value

/-! ## Strings -/

/-- A short escape is read as its character. -/
theorem readString_short {letter c : Char} (h : shortEscape? letter = some c) (rest : List Char) :
    readString ('\\' :: letter :: rest) =
      (readString rest).map fun (units, rest) => (.char c :: units, rest) := by
  have notCode : letter ≠ 'u' := by
    rintro rfl
    simp [shortEscape?] at h
  rw [readString.eq_4 letter rest (fun _ _ _ _ _ hu _ => notCode hu), h]

/-- An escape of four digits is read as its character, if it is a control character. -/
theorem readString_code {c : Char} (h : c.toNat < 32) (rest : List Char) :
    readString ('\\' :: 'u' :: '0' :: '0' :: hexDigit (c.toNat / 16) :: hexDigit (c.toNat % 16) ::
        rest) =
      (readString rest).map fun (units, rest) => (.char c :: units, rest) := by
  have code : hexCode? '0' '0' (hexDigit (c.toNat / 16)) (hexDigit (c.toNat % 16)) =
      some c.toNat := by
    have zero : hexValue? '0' = some 0 := rfl
    rw [hexCode?, zero, hexValue?_hexDigit _ (by omega), hexValue?_hexDigit _ (by omega)]
    simp only [Option.bind_eq_bind, Option.bind_some, Option.pure_def, Option.some.injEq]
    omega
  have unit : StringUnit.ofCode c.toNat = .char c := by
    rw [StringUnit.ofCode, if_neg (by omega), if_neg (by omega), Char.ofNat_toNat]
  rw [readString.eq_3, code]
  simp only [unit]

/-- A character that is not escaped is read as itself. -/
theorem readString_plain {c : Char} (notQuote : c ≠ '"') (notSlash : c ≠ '\\') (h : ¬ c.toNat < 32)
    (rest : List Char) :
    readString (c :: rest) =
      (readString rest).map fun (units, rest) => (.char c :: units, rest) := by
  rw [readString.eq_5 c rest notQuote (fun _ _ _ _ _ hc => absurd hc notSlash)
    (fun _ _ hc => absurd hc notSlash), if_neg (by simp [h, notSlash])]

/-- **One character of a string is read back.**  There is a case for each way of
escaping it, and one for not escaping it. -/
theorem readString_escapeChar (c : Char) (rest : List Char) :
    readString (escapeChar c ++ rest) =
      (readString rest).map fun (units, rest) => (.char c :: units, rest) := by
  rw [escapeChar]
  split
  · subst_vars; exact readString_short rfl rest
  split
  · subst_vars; exact readString_short rfl rest
  split
  · subst_vars; exact readString_short rfl rest
  split
  · subst_vars; exact readString_short rfl rest
  split
  · subst_vars; exact readString_short rfl rest
  split
  · subst_vars; exact readString_short rfl rest
  split
  · subst_vars; exact readString_short rfl rest
  split
  · rename_i control
    exact readString_code control rest
  · rename_i notQuote notSlash _ _ _ _ _ plain
    exact readString_plain notQuote notSlash plain rest

/-- **A string is read back**, up to its closing quote.  What follows the quote is left
to be read. -/
theorem readString_chars (cs rest : List Char) :
    readString (cs.flatMap escapeChar ++ '"' :: rest) = some (cs.map .char, rest) := by
  induction cs with
  | nil => rfl
  | cons c others ih =>
      rw [List.flatMap_cons, List.append_assoc, readString_escapeChar, ih]
      rfl

theorem joinUnits_chars (cs : List Char) : joinUnits (cs.map .char) = some cs := by
  induction cs with
  | nil => rfl
  | cons c rest ih => simp [joinUnits, ih]

/-- A string token. -/
theorem readToken_quote (text : String) (rest : List Char) :
    readToken (quote text ++ rest) = (.scalar (.text text), rest) := by
  rw [quote, List.cons_append, List.append_assoc, readToken]
  simp [readString_chars, stringValue, joinUnits_chars]

/-! ## Numbers -/

/-- What may follow a number.  Nothing that is printed behind a number could be taken
for a part of it. -/
def StopsNumber (rest : List Char) : Prop :=
  ∀ c, rest.head? = some c → c.isDigit = false ∧ c ≠ '.' ∧ c ≠ 'e' ∧ c ≠ 'E'

theorem readWhole_natDigits (n : Nat) {rest : List Char} (stops : StopsNumber rest) :
    readWhole (natDigits n ++ rest) = some (natDigits n, rest) := by
  have span := spanDigits_natDigits n fun c h => (stops c h).1
  rw [readWhole, span]
  split
  · rename_i h
    exact absurd (Prod.mk.inj h).1 (natDigits_ne_nil n)
  · rename_i h
    exact absurd (Prod.mk.inj h).1 (natDigits_ne_zero_cons n _ _)
  · rename_i h
    obtain ⟨rfl, rfl⟩ := Prod.mk.inj h
    rfl

theorem readPlaces_of_stops {rest : List Char} (stops : StopsNumber rest) :
    readPlaces rest = some ([], rest) := by
  cases rest with
  | nil => rfl
  | cons c cs =>
      have := (stops c rfl).2.1
      rw [readPlaces.eq_def]
      split <;> simp_all

theorem readExponent_of_stops {rest : List Char} (stops : StopsNumber rest) :
    readExponent rest = some (none, rest) := by
  cases rest with
  | nil => rfl
  | cons c cs =>
      obtain ⟨_, _, notSmall, notLarge⟩ := stops c rfl
      rw [readExponent.eq_def]
      exact if_neg (by simp [notSmall, notLarge])

/-- Digits of a number that fits are all taken.  No digit is omitted, which is what the
significand keeps account of. -/
theorem foldl_addWhole (digits : List Char) {value : Nat}
    (fits : (digits.foldl (fun value digit => 10 * value + digitValue digit) value) < 2 ^ 64) :
    digits.foldl Significand.addWhole { value, omitted := 0 } =
      { value := digits.foldl (fun value digit => 10 * value + digitValue digit) value
        omitted := 0 } := by
  induction digits generalizing value with
  | nil => rfl
  | cons digit rest ih =>
      have grows : ∀ (cs : List Char) (v : Nat),
          v ≤ cs.foldl (fun value digit => 10 * value + digitValue digit) v := by
        intro cs
        induction cs with
        | nil => exact fun v => Nat.le_refl v
        | cons c cs ih =>
            intro v
            have := ih (10 * v + digitValue c)
            rw [List.foldl_cons]
            omega
      rw [List.foldl_cons] at fits ⊢
      have small := Nat.lt_of_le_of_lt (grows rest _) fits
      rw [List.foldl_cons, Significand.addWhole, if_pos ⟨rfl, small⟩]
      exact ih fits

theorem wholeNumber_natDigits {n : Nat} (fits : n < 2 ^ 64) (negative : Bool) :
    wholeNumber negative (natDigits n) =
      if negative then
        if 0 < n ∧ n ≤ 2 ^ 63 then .integer (-n) else .decimal true n 0
      else .integer n := by
  have digits : (natDigits n).foldl Significand.addWhole { value := 0, omitted := 0 } =
      { value := n, omitted := 0 } := by
    have same : (natDigits n).foldl (fun value digit => 10 * value + digitValue digit) 0 = n :=
      ofDigits_natDigits n
    rw [foldl_addWhole (natDigits n) (by rwa [same]), same]
  rw [wholeNumber, digits]
  simp

theorem readNumber_natDigits (n : Nat) (negative : Bool) {rest : List Char}
    (stops : StopsNumber rest) :
    readNumber negative (natDigits n ++ rest) = some (wholeNumber negative (natDigits n), rest) := by
  rw [readNumber, readWhole_natDigits n stops]
  simp [readPlaces_of_stops stops, readExponent_of_stops stops]

/-- A digit starts a number. -/
theorem readToken_of_isDigit {c : Char} (h : c.isDigit = true) (cs : List Char) :
    readToken (c :: cs) =
      match readNumber false (c :: cs) with
      | some (number, rest) => (.scalar (.number number), rest)
      | none => (.bad, []) := by
  have differs : ∀ d : Char, d.isDigit = false → c ≠ d := by
    rintro d hd rfl
    simp [h] at hd
  rw [readToken.eq_def]
  split <;> rename_i heq
  case h_1 => simp at heq
  case h_13 =>
    obtain ⟨rfl, rfl⟩ := List.cons.inj heq
    cases readNumber false (c :: cs) <;> rfl
  all_goals exact absurd (List.cons.inj heq).1 (differs _ rfl)

theorem readToken_natDigits {n : Nat} (fits : n < 2 ^ 64) {rest : List Char}
    (stops : StopsNumber rest) :
    readToken (natDigits n ++ rest) = (.scalar (.number (.integer n)), rest) := by
  cases hdigits : natDigits n with
  | nil => exact absurd hdigits (natDigits_ne_nil n)
  | cons c cs =>
      have digit : c.isDigit = true := isDigit_of_mem_natDigits (n := n) (by simp [hdigits])
      rw [List.cons_append, readToken_of_isDigit digit, ← List.cons_append, ← hdigits,
        readNumber_natDigits n false stops, wholeNumber_natDigits fits]
      rfl

/-- **An integer is read back**, if it fits into 64 bits.  The sign is a matter of the
first character. -/
theorem readToken_intDigits {i : Int} (low : -2 ^ 63 ≤ i) (high : i < 2 ^ 64) {rest : List Char}
    (stops : StopsNumber rest) :
    readToken (intDigits i ++ rest) = (.scalar (.number (.integer i)), rest) := by
  rw [intDigits]
  split
  · have fits : i.natAbs < 2 ^ 64 := by omega
    rw [List.cons_append, readToken, readNumber_natDigits _ true stops, wholeNumber_natDigits fits]
    have there : 0 < i.natAbs ∧ i.natAbs ≤ 2 ^ 63 := by omega
    have back : -(i.natAbs : Int) = i := by omega
    rw [if_pos rfl, if_pos there, back]
  · have fits : i.natAbs < 2 ^ 64 := by omega
    have back : (i.natAbs : Int) = i := by omega
    rw [readToken_natDigits fits stops, back]

/-! ## From state to state -/

/-- **From one state, a text leads to another with the rest of the text.**  The bound on
the number of tokens is no part of it: any bound will do that is not less than the
length of the text. -/
def Leads (state : State) (cs : List Char) (next : State) (rest : List Char) : Prop :=
  ∀ bound, cs.length ≤ bound → ∃ bound', rest.length ≤ bound' ∧
    (tokensFrom bound cs).foldl State.step state = (tokensFrom bound' rest).foldl State.step next

namespace Leads

variable {state next last : State} {cs middle rest : List Char}

theorem refl (state : State) (cs : List Char) : Leads state cs state cs :=
  fun bound h => ⟨bound, h, rfl⟩

theorem trans (h : Leads state cs next middle) (h' : Leads next middle last rest) :
    Leads state cs last rest := by
  intro bound enough
  obtain ⟨bound', enough', same⟩ := h bound enough
  obtain ⟨bound'', enough'', same'⟩ := h' bound' enough'
  exact ⟨bound'', enough'', same.trans same'⟩

/-- White space is passed over. -/
theorem space {c : Char} (blank : isSpace c = true) (h : Leads state cs next rest) :
    Leads state (c :: cs) next rest := by
  intro bound enough
  have same : tokensFrom bound (c :: cs) = tokensFrom bound cs := by
    cases bound with
    | zero => rfl
    | succ bound => rw [tokensFrom, List.dropWhile_cons_of_pos blank, tokensFrom]
  rw [same]
  exact h bound (Nat.le_of_succ_le enough)

/-- The start of a line is passed over. -/
theorem lineBreak {level : Nat} (h : Leads state cs next rest) :
    Leads state (Json.lineBreak level ++ cs) next rest := by
  refine space rfl ?_
  induction 2 * level with
  | zero => exact h
  | succ count ih => exact space rfl ih

/-- One token takes the reader one step on.  The rest may not be longer than what
follows the first character, since the bound goes down by one. -/
theorem token (token : Token) {c : Char} (solid : isSpace c = false)
    (h : readToken (c :: cs) = (token, rest)) (good : token ≠ .bad)
    (shorter : rest.length ≤ cs.length) : Leads state (c :: cs) (state.step token) rest := by
  intro bound enough
  cases bound with
  | zero => simp at enough
  | succ bound =>
      refine ⟨bound, Nat.le_trans shorter (Nat.le_of_succ_le_succ enough), ?_⟩
      rw [tokensFrom, List.dropWhile_cons_of_neg (by simp [solid])]
      dsimp only
      rw [h]
      cases token with
      | bad => exact absurd rfl good
      | _ => rfl

end Leads

theorem isSpace_of_isDigit {c : Char} (h : c.isDigit = true) : isSpace c = false := by
  rw [isSpace, decide_eq_false_iff_not]
  rintro (rfl | rfl | rfl | rfl) <;> exact absurd h (by decide)

theorem isSpace_head_intDigits {i : Int} {c : Char} {cs : List Char}
    (h : intDigits i = c :: cs) : isSpace c = false := by
  rw [intDigits] at h
  split at h
  · obtain rfl := (List.cons.inj h).1
    rfl
  · exact isSpace_of_isDigit (isDigit_of_mem_natDigits (n := i.natAbs) (by simp [h]))

section Tokens

variable (state : State) (rest : List Char)

theorem leads_quote (text : String) :
    Leads state (quote text ++ rest) (state.step (.scalar (.text text))) rest := by
  have read := readToken_quote text rest
  rw [quote, List.cons_append] at read ⊢
  exact Leads.token _ rfl read (by simp) (by simp; omega)

theorem leads_integer {i : Int} (low : -2 ^ 63 ≤ i) (high : i < 2 ^ 64) (stops : StopsNumber rest) :
    Leads state (intDigits i ++ rest) (state.step (.scalar (.number (.integer i)))) rest := by
  have read := readToken_intDigits low high stops
  cases hdigits : intDigits i with
  | nil =>
      rw [intDigits] at hdigits
      split at hdigits
      · simp at hdigits
      · exact absurd hdigits (natDigits_ne_nil _)
  | cons c cs =>
      have solid : isSpace c = false := isSpace_head_intDigits hdigits
      rw [hdigits, List.cons_append] at read
      exact Leads.token _ solid read (by simp) (by simp)

end Tokens

/-! ## Values -/

/-- **A state waits for a value inside some containers.**  A closing bracket is left
out: behind an opening one it ends the array. -/
def AwaitsValue (state : State) (stack : List Frame) : Prop :=
  ∀ token, token ≠ .closeArray → state.step token = State.startValue stack token

theorem awaitsValue_value (stack : List Frame) : AwaitsValue (.value stack) stack :=
  fun _ _ => rfl

theorem awaitsValue_firstItem (stack : List Frame) :
    AwaitsValue (.firstItem stack) (.array [] :: stack) := by
  intro token h
  cases token <;> first | rfl | exact absurd rfl h

/-- A state waits for a key of an object.  It is so behind the opening brace and behind
a comma. -/
def AwaitsKey (state : State) (members : List (String × Value)) (stack : List Frame) : Prop :=
  ∀ key, state.step (.scalar (.text key)) = .colon key members stack

theorem awaitsKey_firstKey (stack : List Frame) : AwaitsKey (.firstKey stack) [] stack :=
  fun _ => rfl

theorem awaitsKey_nextKey (members : List (String × Value)) (stack : List Frame) :
    AwaitsKey (.nextKey members stack) members stack :=
  fun _ => rfl

/-- What is printed for a key leads the reader to its value. -/
theorem leads_key {state : State} {members : List (String × Value)} {stack : List Frame}
    (awaits : AwaitsKey state members stack) (key : String) (rest : List Char) :
    Leads state (quote key ++ ':' :: ' ' :: rest) (.value (.member members key :: stack)) rest := by
  refine (leads_quote state _ key).trans ?_
  rw [awaits key]
  refine (Leads.token .colon rfl rfl (by simp) (Nat.le_refl _)).trans ?_
  exact Leads.space rfl (.refl _ _)

theorem stopsNumber_lineBreak (level : Nat) (rest : List Char) :
    StopsNumber (lineBreak level ++ rest) := by
  intro c h
  obtain rfl : '\n' = c := by simpa [lineBreak] using h
  decide

theorem stopsNumber_comma (rest : List Char) : StopsNumber (',' :: rest) := by
  intro c h
  obtain rfl : ',' = c := by simpa using h
  decide

theorem stopsNumber_printItems {level : Nat} {items : List Value} {rest : List Char}
    (stops : StopsNumber rest) : StopsNumber (printItems level items ++ rest) := by
  cases items with
  | nil => exact stops
  | cons item others =>
      rw [printItems]
      exact stopsNumber_comma _

theorem stopsNumber_printMembers {level : Nat} {members : List (String × Value)}
    {rest : List Char} (stops : StopsNumber rest) :
    StopsNumber (printMembers level members ++ rest) := by
  cases members with
  | nil => exact stops
  | cons member others =>
      rw [printMembers]
      exact stopsNumber_comma _

mutual

/-- **What is printed for a value leads the reader to that value.**  The recursion is
the printer's own, through the items of arrays and the members of objects. -/
theorem leads_value : ∀ (value : Value), value.isStorable = true →
    ∀ {level : Nat} {state : State} {stack : List Frame} {rest : List Char},
      AwaitsValue state stack → StopsNumber rest →
        Leads state (printValue level value ++ rest) (.complete value stack) rest
  | .null, _, level, state, stack, rest, awaits, _ => by
      rw [printValue, ← State.startValue, ← awaits _ (by simp)]
      exact Leads.token _ rfl rfl (by simp) (by simp; omega)
  | .bool true, _, level, state, stack, rest, awaits, _ => by
      rw [printValue, ← State.startValue, ← awaits _ (by simp)]
      exact Leads.token _ rfl rfl (by simp) (by simp; omega)
  | .bool false, _, level, state, stack, rest, awaits, _ => by
      rw [printValue, ← State.startValue, ← awaits _ (by simp)]
      exact Leads.token _ rfl rfl (by simp) (by simp; omega)
  | .number (.integer i), storable, level, state, stack, rest, awaits, stops => by
      rw [Value.isStorable, Bool.and_eq_true, decide_eq_true_eq, decide_eq_true_eq] at storable
      rw [printValue, printNumber, ← State.startValue, ← awaits _ (by simp)]
      exact leads_integer state rest storable.1 storable.2 stops
  | .number (.decimal _ _ _), storable, _, _, _, _, _, _ => by simp [Value.isStorable] at storable
  | .text text, _, level, state, stack, rest, awaits, _ => by
      rw [printValue, ← State.startValue, ← awaits _ (by simp)]
      exact leads_quote state rest text
  | .brokenText, storable, _, _, _, _, _, _ => by simp [Value.isStorable] at storable
  | .malformed, storable, _, _, _, _, _, _ => by simp [Value.isStorable] at storable
  | .array [], _, level, state, stack, rest, awaits, _ => by
      rw [printValue]
      refine (Leads.token .openArray rfl rfl (by simp) (by simp)).trans ?_
      rw [awaits _ (by simp)]
      exact Leads.token .closeArray rfl rfl (by simp) (by simp)
  | .array (item :: items), storable, level, state, stack, rest, awaits, _ => by
      rw [Value.isStorable, Value.areStorable, Bool.and_eq_true] at storable
      have closes := stopsNumber_lineBreak level (']' :: rest)
      obtain ⟨last, before, all, further⟩ := leads_items items storable.2 (level + 1) item
        [] stack closes
      rw [printValue]
      simp only [List.cons_append, List.append_assoc, List.nil_append]
      refine (Leads.token .openArray rfl rfl (by simp) (Nat.le_refl _)).trans ?_
      rw [awaits _ (by simp)]
      refine Leads.lineBreak (Leads.trans ?_ (further.trans (Leads.lineBreak ?_)))
      · exact leads_value item storable.1 (awaitsValue_firstItem _) (stopsNumber_printItems closes)
      · have whole : Value.array (item :: items) = Frame.close last (.array before) := by
          rw [Frame.close, all]
          rfl
        rw [whole]
        exact Leads.token .closeArray rfl rfl (by simp) (Nat.le_refl _)
  | .object [], _, level, state, stack, rest, awaits, _ => by
      rw [printValue]
      refine (Leads.token .openObject rfl rfl (by simp) (by simp)).trans ?_
      rw [awaits _ (by simp)]
      exact Leads.token .closeObject rfl rfl (by simp) (by simp)
  | .object ((key, item) :: members), storable, level, state, stack, rest, awaits, _ => by
      rw [Value.isStorable, Value.areStorableMembers, Bool.and_eq_true] at storable
      have closes := stopsNumber_lineBreak level ('\x7d' :: rest)
      obtain ⟨lastKey, last, before, all, further⟩ := leads_members members storable.2
        (level + 1) key item [] stack closes
      rw [printValue]
      simp only [List.cons_append, List.append_assoc, List.nil_append]
      refine (Leads.token .openObject rfl rfl (by simp) (Nat.le_refl _)).trans ?_
      rw [awaits _ (by simp)]
      refine Leads.lineBreak ((leads_key (awaitsKey_firstKey stack) key _).trans (Leads.trans ?_
        (further.trans (Leads.lineBreak ?_))))
      · exact leads_value item storable.1 (awaitsValue_value _) (stopsNumber_printMembers closes)
      · have whole : Value.object ((key, item) :: members) =
            Frame.close last (.member before lastKey) := by
          rw [Frame.close, all]
          rfl
        rw [whole]
        exact Leads.token .closeObject rfl rfl (by simp) (Nat.le_refl _)

/-- What is printed for the further items of an array.  What has been read so far is at
hand in reverse, and the last value is not put there yet. -/
theorem leads_items : ∀ (items : List Value), Value.areStorable items = true →
    ∀ (level : Nat) (value : Value) (read : List Value) (stack : List Frame) {rest : List Char},
      StopsNumber rest → ∃ last before,
        (last :: before).reverse = (value :: read).reverse ++ items ∧
          Leads (.complete value (.array read :: stack)) (printItems level items ++ rest)
            (.complete last (.array before :: stack)) rest
  | [], _, level, value, read, stack, rest, _ => ⟨value, read, by simp, .refl _ _⟩
  | item :: items, storable, level, value, read, stack, rest, stops => by
      rw [Value.areStorable, Bool.and_eq_true] at storable
      obtain ⟨last, before, all, further⟩ := leads_items items storable.2 level item
        (value :: read) stack stops
      refine ⟨last, before, by simp [all], ?_⟩
      rw [printItems]
      simp only [List.cons_append, List.append_assoc]
      refine (Leads.token .comma rfl rfl (by simp) (Nat.le_refl _)).trans ?_
      refine Leads.lineBreak (Leads.trans ?_ further)
      exact leads_value item storable.1 (awaitsValue_value _) (stopsNumber_printItems stops)

/-- What is printed for the further members of an object.  Each of them has its key
before it. -/
theorem leads_members : ∀ (members : List (String × Value)),
    Value.areStorableMembers members = true →
    ∀ (level : Nat) (key : String) (value : Value) (read : List (String × Value))
      (stack : List Frame) {rest : List Char},
      StopsNumber rest → ∃ lastKey last before,
        ((lastKey, last) :: before).reverse = ((key, value) :: read).reverse ++ members ∧
          Leads (.complete value (.member read key :: stack)) (printMembers level members ++ rest)
            (.complete last (.member before lastKey :: stack)) rest
  | [], _, level, key, value, read, stack, rest, _ => ⟨key, value, read, by simp, .refl _ _⟩
  | (nextKey, item) :: members, storable, level, key, value, read, stack, rest, stops => by
      rw [Value.areStorableMembers, Bool.and_eq_true] at storable
      obtain ⟨lastKey, last, before, all, further⟩ := leads_members members storable.2
        level nextKey item ((key, value) :: read) stack stops
      refine ⟨lastKey, last, before, by simp [all], ?_⟩
      rw [printMembers]
      simp only [List.cons_append, List.append_assoc, List.nil_append]
      refine (Leads.token .comma rfl rfl (by simp) (Nat.le_refl _)).trans ?_
      refine Leads.lineBreak ((leads_key (awaitsKey_nextKey _ stack) nextKey _).trans
        (Leads.trans ?_ further))
      exact leads_value item storable.1 (awaitsValue_value _) (stopsNumber_printMembers stops)

end

/-- **A value is read back from its printed form.**  The reader starts outside of all
containers and is done when the value is complete. -/
theorem Document.ofText_pretty {value : Value} (h : value.isStorable = true) :
    Document.ofText value.pretty = { value, trailing := false } := by
  have leads : Leads (.value []) (printValue 0 value ++ []) (.complete value []) [] :=
    leads_value value h (awaitsValue_value []) (by simp [StopsNumber])
  obtain ⟨bound, _, same⟩ := leads _ (Nat.le_refl _)
  have done : tokensFrom bound [] = [] := by cases bound <;> rfl
  rw [List.append_nil, done] at same
  rw [ofText, Value.pretty, String.toList_ofList, tokens, same]
  rfl

end AliasHoist.Json
