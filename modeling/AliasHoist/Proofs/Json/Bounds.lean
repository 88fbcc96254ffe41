import AliasHoist.Json.Decode
import Mathlib.Algebra.Group.Int.Defs
import Mathlib.Algebra.Group.Nat.Defs

/-!
# The integers of a text

An integer that does not fit into 64 bits is read as a decimal, so every integer in a value that was
read from a text fits.

## Main Definitions

* `Value.Fits`: all integers of a value are below `2 ^ 64`;
* `State.Fits`: the same for what has been read so far.

## Main Statements

* `State.Fits.step`: one token keeps it so;
* `Document.fits_ofText`: the value of a text;
* `natural_lt`: a count that was read fits into 64 bits.
-/

namespace AliasHoist.Json

/-! ## Values and states that fit -/

/-- **All integers of a value are below `2 ^ 64`.**  Decimals are no integers, however
large they are. -/
inductive Value.Fits : Value → Prop where
  | null : Fits .null
  | bool (b : Bool) : Fits (.bool b)
  | integer {i : Int} (lt : i < 2 ^ 64) : Fits (.number (.integer i))
  | decimal (negative : Bool) (digits : Nat) (exponent : Int) :
      Fits (.number (.decimal negative digits exponent))
  | text (s : String) : Fits (.text s)
  | brokenText : Fits .brokenText
  | array {items : List Value} (all : ∀ item ∈ items, Fits item) : Fits (.array items)
  | object {members : List (String × Value)} (all : ∀ member ∈ members, Fits member.2) :
      Fits (.object members)
  | malformed : Fits .malformed

/-- The same for an open container. -/
def Frame.Fits : Frame → Prop
  | array items => ∀ item ∈ items, item.Fits
  | member members _ => ∀ member ∈ members, member.2.Fits

/-- The same for what has been read so far. -/
def State.Fits : State → Prop
  | value stack | firstItem stack | firstKey stack => ∀ frame ∈ stack, frame.Fits
  | nextKey members stack | colon _ members stack =>
      (∀ member ∈ members, member.2.Fits) ∧ ∀ frame ∈ stack, frame.Fits
  | complete v stack => v.Fits ∧ ∀ frame ∈ stack, frame.Fits
  | trailing v | failed v => v.Fits

/-- The same for a token. -/
def Token.Fits (token : Token) : Prop := ∀ v, token = .scalar v → v.Fits

/-! ## Tokens -/

theorem addWhole_lt {s : Significand} (h : s.value < 2 ^ 64) (digit : Char) :
    (s.addWhole digit).value < 2 ^ 64 := by
  rw [Significand.addWhole]
  split
  · rename_i fits
    exact fits.2
  · exact h

theorem foldl_addWhole_lt (digits : List Char) {s : Significand} (h : s.value < 2 ^ 64) :
    (digits.foldl Significand.addWhole s).value < 2 ^ 64 := by
  induction digits generalizing s with
  | nil => exact h
  | cons digit rest ih => exact ih (addWhole_lt h digit)

/-- A number that does not fit is no integer.  It is read as a decimal, with the digits
that were taken. -/
theorem fits_wholeNumber (negative : Bool) (digits : List Char) :
    (Value.number (wholeNumber negative digits)).Fits := by
  have lt := foldl_addWhole_lt digits (s := { value := 0, omitted := 0 }) (by decide)
  rw [wholeNumber]
  split
  · exact .decimal _ _ _
  · split
    · split
      · exact .integer (by omega)
      · exact .decimal _ _ _
    · exact .integer (by omega)

theorem fits_of_readNumber {negative : Bool} {cs rest : List Char} {number : Number}
    (h : readNumber negative cs = some (number, rest)) : (Value.number number).Fits := by
  rw [readNumber] at h
  simp only [Option.bind_eq_bind, Option.bind_eq_some_iff, Prod.exists] at h
  obtain ⟨whole, _, _, places, _, _, exponent, _, _, h⟩ := h
  split at h
  · obtain ⟨rfl, _⟩ := Prod.mk.inj (Option.some.inj h)
    exact fits_wholeNumber _ _
  · obtain ⟨rfl, _⟩ := Prod.mk.inj (Option.some.inj h)
    exact .decimal _ _ _

theorem fits_stringValue (units : List StringUnit) : (stringValue units).Fits := by
  rw [stringValue]
  split
  · exact .text _
  · exact .brokenText

theorem fits_readToken (cs : List Char) : (readToken cs).1.Fits := by
  intro v hv
  revert hv
  fun_cases readToken cs <;> intro hv <;> simp only [Token.scalar.injEq, reduceCtorEq] at hv
  all_goals subst hv
  case case8 => exact .null
  case case9 => exact .bool true
  case case10 => exact .bool false
  case case11 => exact fits_stringValue _
  case case13 read => exact fits_of_readNumber read
  case case15 read => exact fits_of_readNumber read

/-- All tokens of a text fit, whatever text it is. -/
theorem fits_tokensFrom (bound : Nat) (cs : List Char) : ∀ token ∈ tokensFrom bound cs, token.Fits := by
  induction bound generalizing cs with
  | zero => simp [tokensFrom]
  | succ bound ih =>
      rw [tokensFrom]
      cases cs.dropWhile isSpace with
      | nil => simp
      | cons c rest =>
          dsimp only
          have first := fits_readToken (c :: rest)
          rcases hread : readToken (c :: rest) with ⟨token, others⟩
          rw [hread] at first
          split
          · intro token mem v hv
            rw [List.mem_singleton.mp mem] at hv
            contradiction
          · rename_i same
            obtain ⟨rfl, rfl⟩ := Prod.mk.inj same
            intro token mem
            rcases List.mem_cons.mp mem with rfl | later
            · exact first
            · exact ih _ token later

/-! ## Steps -/

theorem fits_array_reverse {items : List Value} (h : ∀ item ∈ items, item.Fits) :
    (Value.array items.reverse).Fits :=
  .array fun item mem => h item (List.mem_reverse.mp mem)

theorem fits_object_reverse {members : List (String × Value)}
    (h : ∀ member ∈ members, member.2.Fits) : (Value.object members.reverse).Fits :=
  .object fun member mem => h member (List.mem_reverse.mp mem)

theorem Frame.Fits.close {frame : Frame} {v : Value} (h : frame.Fits) (fits : v.Fits) :
    (frame.close v).Fits := by
  cases frame with
  | array items => exact fits_array_reverse (List.forall_mem_cons.mpr ⟨fits, h⟩)
  | member members key => exact fits_object_reverse (List.forall_mem_cons.mpr ⟨fits, h⟩)

/-- Containers that are still open at the end are closed around what has been read. -/
theorem fits_closeAll {stack : List Frame} {v : Value} (h : ∀ frame ∈ stack, frame.Fits)
    (fits : v.Fits) : (closeAll stack v).Fits := by
  induction stack generalizing v with
  | nil => exact fits
  | cons frame rest ih =>
      exact ih (fun frame mem => h frame (List.mem_cons_of_mem _ mem))
        ((h frame List.mem_cons_self).close fits)

theorem fits_brokenObject {members : List (String × Value)}
    (h : ∀ member ∈ members, member.2.Fits) : (brokenObject members).Fits :=
  fits_object_reverse (List.forall_mem_cons.mpr ⟨.malformed, h⟩)

namespace State

variable {stack : List Frame} {token : Token} {members : List (String × Value)}

theorem fits_startValue (h : ∀ frame ∈ stack, frame.Fits) (fits : token.Fits) :
    (startValue stack token).Fits := by
  cases token with
  | scalar v => exact ⟨fits v rfl, h⟩
  | openArray => exact h
  | openObject => exact h
  | _ => exact fits_closeAll h .malformed

theorem fits_startKey (h : ∀ frame ∈ stack, frame.Fits)
    (h' : ∀ member ∈ members, member.2.Fits) : (startKey members stack token).Fits := by
  have failed : (State.failed (closeAll stack (brokenObject members))).Fits :=
    fits_closeAll h (fits_brokenObject h')
  unfold startKey
  split
  · exact ⟨h', h⟩
  · exact failed

/-- **One token keeps it so.**  There is one case for each state, and only a token that
is a value adds something. -/
theorem Fits.step {state : State} (h : state.Fits) (fits : token.Fits) : (state.step token).Fits := by
  fun_cases State.step state token
  all_goals simp only [State.Fits, List.mem_cons, forall_eq_or_imp] at h
  case case1 => exact fits_startValue h fits
  case case2 => exact ⟨.array (by simp), h⟩
  case case3 =>
    exact fits_startValue (List.forall_mem_cons.mpr ⟨by simp [Frame.Fits], h⟩) fits
  case case4 => exact ⟨.object (by simp), h⟩
  case case5 => exact fits_startKey h (by simp)
  case case6 => exact fits_startKey h.2 h.1
  case case7 => exact List.forall_mem_cons.mpr ⟨h.1, h.2⟩
  case case8 => exact fits_closeAll (List.forall_mem_cons.mpr ⟨h.1, h.2⟩) .malformed
  case case9 => exact List.forall_mem_cons.mpr ⟨List.forall_mem_cons.mpr ⟨h.1, h.2.1⟩, h.2.2⟩
  case case10 => exact ⟨Frame.Fits.close h.2.1 h.1, h.2.2⟩
  case case11 =>
    exact fits_closeAll (List.forall_mem_cons.mpr ⟨List.forall_mem_cons.mpr ⟨h.1, h.2.1⟩, h.2.2⟩)
      .malformed
  case case12 => exact ⟨List.forall_mem_cons.mpr ⟨h.1, h.2.1⟩, h.2.2⟩
  case case13 => exact ⟨Frame.Fits.close h.2.1 h.1, h.2.2⟩
  case case14 =>
    exact fits_closeAll h.2.2 (fits_brokenObject (List.forall_mem_cons.mpr ⟨h.1, h.2.1⟩))
  case case15 => exact h.1
  case case16 => exact h
  case case17 => exact h

/-- So does reading all tokens one after the other. -/
theorem Fits.foldl {state : State} (h : state.Fits) {tokens : List Token}
    (fits : ∀ token ∈ tokens, token.Fits) : (tokens.foldl State.step state).Fits := by
  induction tokens generalizing state with
  | nil => exact h
  | cons token rest ih =>
      exact ih (h.step (fits token List.mem_cons_self)) fun token mem =>
        fits token (List.mem_cons_of_mem _ mem)

end State

/-! ## Texts -/

theorem Document.fits_ofState {state : State} (h : state.Fits) : (ofState state).value.Fits := by
  have bad : Token.bad.Fits := fun v hv => by contradiction
  have ended := h.step bad
  fun_cases ofState state
  · exact h.1
  · exact h
  · exact h
  · rename_i failed
    rw [failed] at ended
    exact ended
  · exact .malformed

/-- **The integers of a text are below `2 ^ 64`.**  The text need not be well-formed:
what could be read of it counts. -/
theorem Document.fits_ofText (text : String) : (ofText text).value.Fits := by
  have start : (State.value []).Fits := fun frame mem => absurd mem List.not_mem_nil
  exact fits_ofState (start.foldl (fits_tokensFrom _ _))

/-- A natural number that was read from a text is below `2 ^ 64`.  It is the count of a
record, which is so written again without loss. -/
theorem natural_lt {v : Value} {n : Nat} (fits : v.Fits) (h : natural v = .ok n) : n < 2 ^ 64 := by
  cases fits with
  | @integer i lt =>
      rw [natural] at h
      split at h
      · contradiction
      · obtain rfl := Except.ok.inj h
        omega
  | _ => simp [natural] at h

end AliasHoist.Json
