/-!
# Looking for text in text

`containsSlice_iff` says what it is to occur somewhere in a list of characters.
-/

namespace EntityGraph

/-- Whether `needle` occurs in the list, at any place. -/
def containsSlice (needle : List Char) : List Char → Bool
  | [] => needle.isEmpty
  | c :: cs => needle.isPrefixOf (c :: cs) || containsSlice needle cs

theorem containsSlice_iff {needle : List Char} :
    ∀ {cs : List Char}, containsSlice needle cs = true ↔ ∃ front back, cs = front ++ needle ++ back
  | [] => by
    simp only [containsSlice, List.isEmpty_iff]
    constructor
    · rintro rfl
      exact ⟨[], [], rfl⟩
    · rintro ⟨front, back, h⟩
      simp_all
  | c :: cs => by
    simp only [containsSlice, Bool.or_eq_true, List.isPrefixOf_iff_prefix,
      @containsSlice_iff needle cs]
    constructor
    · rintro (⟨back, h⟩ | ⟨front, back, h⟩)
      · exact ⟨[], back, by simpa using h.symm⟩
      · exact ⟨c :: front, back, by simp [h]⟩
    · rintro ⟨front, back, h⟩
      cases front with
      | nil => exact .inl ⟨back, by simpa using h.symm⟩
      | cons f front => exact .inr ⟨front, back, by simpa using (List.cons.inj h).2⟩

/-- Whether `text` begins with `start`. -/
def startsWithText (text start : String) : Bool := start.toList.isPrefixOf text.toList

/-- Whether `needle` occurs in `text`. -/
def containsText (text needle : String) : Bool := containsSlice needle.toList text.toList

end EntityGraph
