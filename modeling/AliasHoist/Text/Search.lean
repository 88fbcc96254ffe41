/-!
# Parts of texts

Whether a text occurs in another.
-/

namespace AliasHoist.Text

/-- Whether some characters occur in a row among others. -/
def occursIn (part : List Char) : List Char → Bool
  | [] => part.isEmpty
  | c :: rest => part.isPrefixOf (c :: rest) || occursIn part rest

/-- **Whether a text is a part of another.** -/
def isPartOf (part whole : String) : Bool := occursIn part.toList whole.toList

/-- Characters occur in a row exactly when the others are some text, they, and some more text. -/
theorem occursIn_iff (part whole : List Char) :
    occursIn part whole = true ↔ ∃ before after, whole = before ++ part ++ after := by
  induction whole with
  | nil =>
      simp only [occursIn, List.isEmpty_iff]
      constructor
      · rintro rfl
        exact ⟨[], [], rfl⟩
      · rintro ⟨before, after, h⟩
        simp_all
  | cons c rest ih =>
      simp only [occursIn, Bool.or_eq_true, List.isPrefixOf_iff_prefix, ih]
      constructor
      · rintro (⟨after, h⟩ | ⟨before, after, h⟩)
        · exact ⟨[], after, by simpa using h.symm⟩
        · exact ⟨c :: before, after, by simp [h]⟩
      · rintro ⟨before, after, h⟩
        cases before with
        | nil => exact .inl ⟨after, by simpa using h.symm⟩
        | cons b before =>
            simp only [List.cons_append, List.cons.injEq] at h
            exact .inr ⟨before, after, by simpa using h.2⟩

end AliasHoist.Text
