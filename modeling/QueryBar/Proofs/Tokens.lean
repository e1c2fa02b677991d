/-
What a typed text leaves to be searched for.

Nothing is lost when a text is taken apart: where no operator, comparison or bracket is
read, the text itself remains.  So a text that is not free text has empty tokens only if
it is blank.

What is read is one of three things (`ofText_cases`).  Free text excludes everything else, and it
is what a text with the mark at its front always is.
-/
import QueryBar.Proofs.Text
import QueryBar.Tokens

namespace QueryBar.Tokens

variable {c : Config} {f : Option QueryFunction}

/-- Where no operator is read, nothing is taken away. -/
theorem readOperator_none {cs rest : List Char} (h : readOperator c cs = (none, rest)) :
    rest = cs := by
  unfold readOperator at h
  split at h
  · simp at h
  · split at h
    · simp at h
    · split at h
      · exact (Prod.mk.inj h).2.symm
      · split at h
        · simp at h
        · split at h
          · simp at h
          · exact (Prod.mk.inj h).2.symm

/-- An operand is empty only if there is neither an operator nor a text. -/
theorem isEmpty_ofOperand {operator : Option Operator} {cs : List Char}
    (h : (ofOperand c f operator cs).isEmpty = true) : operator = none ∧ cs = [] := by
  unfold ofOperand at h
  split at h
  · simp [isEmpty] at h
  · split at h
    · simp [isEmpty] at h
    · split at h
      · simp [isEmpty] at h
      · simpa [isEmpty] using h

/-- **Only a blank text has empty tokens**, unless it is free text. -/
theorem blank_of_isEmpty {text : String} (hempty : (ofText c f text).isEmpty = true)
    (hfree : (ofText c f text).freeText = false) : Text.trim text.toList = [] := by
  unfold ofText ofChars at hempty hfree
  dsimp only at hempty hfree
  split at hempty
  · rename_i hblank
    exact List.isEmpty_iff.mp hblank
  · rename_i htrimmed
    rw [if_neg htrimmed] at hfree
    split at hempty
    · rename_i literal hliteral
      simp [hliteral] at hfree
    · obtain ⟨hoperator, hrest⟩ := isEmpty_ofOperand hempty
      by_cases hreads : c.readsOperators f = true
      · rw [if_pos hreads] at hoperator hrest
        rw [← readOperator_none (Prod.ext hoperator rfl)]
        exact hrest
      · rw [if_neg hreads] at hrest
        exact hrest

/-- Nothing is read off a blank text. -/
theorem ofText_of_blank {text : String} (h : Text.trim text.toList = []) :
    ofText c f text = {} := by
  unfold ofText ofChars
  dsimp only
  rw [if_pos (List.isEmpty_iff.mpr h)]

/-- An operand is never free text. -/
theorem freeText_ofOperand (c : Config) (f : Option QueryFunction) (operator : Option Operator)
    (cs : List Char) : (ofOperand c f operator cs).freeText = false := by
  unfold ofOperand
  split
  · rfl
  · split
    · rfl
    · split <;> rfl

/-- **A text is blank, or free text, or an operator and its operand.** -/
theorem ofText_cases (c : Config) (f : Option QueryFunction) (text : String) :
    ofText c f text = {} ∨
      (∃ literal, ofText c f text = { remainder := literal, freeText := true }) ∨
      ∃ operator cs, ofText c f text = ofOperand c f operator cs := by
  unfold ofText ofChars
  dsimp only
  split
  · exact Or.inl rfl
  · split
    · exact Or.inr (Or.inl ⟨_, rfl⟩)
    · exact Or.inr (Or.inr ⟨_, _, rfl⟩)

/-- **A bracket is neither nothing nor free text.** -/
theorem of_bracket {text : String} {b : Bracket} (h : (ofText c f text).bracket = some b) :
    ((ofText c f text).freeText || (ofText c f text).isEmpty) = false := by
  have hsome : (ofText c f text).isEmpty = false := by
    unfold isEmpty
    rw [h]
    simp
  rw [hsome, Bool.or_false]
  rcases ofText_cases c f text with hblank | ⟨literal, hliteral⟩ | ⟨operator, cs, hoperand⟩
  · rw [hblank]
  · rw [hliteral] at h
    contradiction
  · rw [hoperand]
    exact freeText_ofOperand ..

/-- Where a comparison is read, no bracket is. -/
theorem bracket_ofOperand_of_comparison {operator : Option Operator} {cs : List Char} {s : String}
    (h : (ofOperand c f operator cs).comparison = some s) :
    (ofOperand c f operator cs).bracket = none := by
  unfold ofOperand at h ⊢
  split
  · rfl
  · rename_i hpair
    rw [hpair] at h
    dsimp only at h
    split
    · rename_i hbracket
      rw [hbracket] at h
      contradiction
    · split <;> rfl

/-- **A text in which a comparison is read is searched for**: it is neither nothing nor free text,
and no bracket. -/
theorem of_comparison {text s : String} (h : (ofText c f text).comparison = some s) :
    ((ofText c f text).freeText || (ofText c f text).isEmpty) = false ∧
      (ofText c f text).bracket = none := by
  have hsome : (ofText c f text).isEmpty = false := by
    unfold isEmpty
    rw [h]
    simp
  rw [hsome, Bool.or_false]
  rcases ofText_cases c f text with hblank | ⟨literal, hliteral⟩ | ⟨operator, cs, hoperand⟩
  · rw [hblank] at h
    contradiction
  · rw [hliteral] at h
    contradiction
  · rw [hoperand] at h ⊢
    exact ⟨freeText_ofOperand .., bracket_ofOperand_of_comparison h⟩

/-- **A text that starts with the mark is free text, all that follows the mark included.** -/
theorem ofText_of_mark {text : String}
    (h : freeTextMark.toList.isPrefixOf text.toList = true) :
    ofText c f text =
      { remainder := String.ofList (text.toList.drop freeTextMark.length), freeText := true } := by
  obtain ⟨rest, hrest⟩ := List.isPrefixOf_iff_prefix.mp h
  have htext : text.toList = '"' :: rest := hrest.symm
  have hliteral : literal? ('"' :: rest) = some rest := rfl
  unfold ofText ofChars
  rw [htext, hliteral]
  dsimp only
  rw [if_neg (by simpa using Text.trim_cons_ne_nil (show Text.isBlank '"' = false by decide) rest)]
  rfl

theorem freeText_of_mark {text : String}
    (h : freeTextMark.toList.isPrefixOf text.toList = true) :
    (ofText c f text).freeText = true := by
  rw [ofText_of_mark h]

/-- Blanks in front of the mark make no difference to that. -/
theorem freeText_of_mark_after_blanks {text : String} (hblank : Text.trim text.toList ≠ [])
    (h : freeTextMark.toList <+: Text.trimStart text.toList) :
    (ofText c f text).freeText = true := by
  obtain ⟨rest, hrest⟩ := h
  have hliteral : literal? text.toList = some rest := by
    unfold literal?
    rw [← hrest]
    rfl
  unfold ofText ofChars
  dsimp only
  rw [if_neg (by simpa using hblank), hliteral]

/-- Free text is no bracket. -/
theorem bracket_of_freeText {text : String} (h : (ofText c f text).freeText = true) :
    (ofText c f text).bracket = none := by
  cases hbracket : (ofText c f text).bracket with
  | none => rfl
  | some b =>
      have hplain := of_bracket hbracket
      rw [h] at hplain
      contradiction

/-- From an empty text nothing is read. -/
theorem isEmpty_of_text {text : String} (h : text.isEmpty = true) :
    (ofText c f text).isEmpty = true := by
  obtain rfl : text = "" := String.isEmpty_iff.mp h
  rfl

end QueryBar.Tokens
