/-
What operations other than typing do to the search of a box.

An operation either leaves the search of the box alone (`Keeps`) or ends it (`Closes`):
the box then searches for nothing, shows nothing, and its count has gone up, so that every
request made before is stale.  There is nothing in between, and both compose, which is why
the two together (`Follows`) can be carried through any sequence of operations.

The count only has to go up where a search ends.  A new text also advances it, but that is
not one of the operations described here.
-/
import QueryBar.EditBox.Keys
import QueryBar.EditBox.Typing

namespace QueryBar.EditBox

/-- The second box holds the text of the first and still searches for what the first did. -/
structure Keeps (e e' : EditBox) : Prop where
  generation : e'.generation = e.generation
  text : e'.text = e.text
  operator : e'.operator = e.operator
  comparison : e'.comparison = e.comparison
  matchText : e'.matchText = e.matchText
  buckets : e'.buckets = e.buckets

/-- The boxes are about the same, hold the same text and search for the same.  They may differ in
what only the reader of a box takes notice of. -/
structure Resembles (e e' : EditBox) : Prop extends Keeps e e' where
  matcher : e'.matcher = e.matcher
  first : e'.first = e.first
  allowFunctions : e'.allowFunctions = e.allowFunctions
  allowFreeText : e'.allowFreeText = e.allowFreeText

/-- The second box searches for nothing, and requests made up to the first are stale. -/
structure Closes (e e' : EditBox) : Prop where
  owner : e'.generation.owner = e.generation.owner
  later : e.generation.current < e'.generation.current
  matchText : e'.matchText = none
  buckets : e'.buckets = []

/-- The search of the first box is kept or ended. -/
def Follows (e e' : EditBox) : Prop := Keeps e e' ∨ Closes e e'

variable {e e' e'' : EditBox}

/-! ### One operation after the other -/

theorem Keeps.refl (e : EditBox) : Keeps e e := ⟨rfl, rfl, rfl, rfl, rfl, rfl⟩

theorem Keeps.trans (h : Keeps e e') (h' : Keeps e' e'') : Keeps e e'' where
  generation := h'.generation.trans h.generation
  text := h'.text.trans h.text
  operator := h'.operator.trans h.operator
  comparison := h'.comparison.trans h.comparison
  matchText := h'.matchText.trans h.matchText
  buckets := h'.buckets.trans h.buckets

theorem Follows.refl (e : EditBox) : Follows e e := Or.inl (Keeps.refl e)

/-- What follows an ended search leaves it ended. -/
theorem Closes.trans_follows (h : Closes e e') (h' : Follows e' e'') : Closes e e'' := by
  obtain ⟨howner, hlater, htext, hbuckets⟩ := h
  rcases h' with hkeeps | hcloses
  · obtain ⟨hgeneration, -, -, -, htext', hbuckets'⟩ := hkeeps
    refine ⟨?_, ?_, htext'.trans htext, hbuckets'.trans hbuckets⟩
    · rw [hgeneration, howner]
    · rw [hgeneration]
      exact hlater
  · obtain ⟨howner', hlater', htext', hbuckets'⟩ := hcloses
    exact ⟨howner'.trans howner, by omega, htext', hbuckets'⟩

theorem Keeps.trans_follows (h : Keeps e e') (h' : Follows e' e'') : Follows e e'' := by
  rcases h' with hkeeps | hcloses
  · exact Or.inl (h.trans hkeeps)
  · obtain ⟨howner, hlater, htext, hbuckets⟩ := hcloses
    rw [h.generation] at howner hlater
    exact Or.inr ⟨howner, hlater, htext, hbuckets⟩

theorem Follows.trans (h : Follows e e') (h' : Follows e' e'') : Follows e e'' := by
  rcases h with hkeeps | hcloses
  · exact hkeeps.trans_follows h'
  · exact Or.inr (hcloses.trans_follows h')

/-- A search that is ended in the end is ended on the whole. -/
theorem Follows.trans_closes (h : Follows e e') (h' : Closes e' e'') : Closes e e'' := by
  rcases h with hkeeps | hcloses
  · obtain ⟨howner, hlater, htext, hbuckets⟩ := h'
    rw [hkeeps.generation] at howner hlater
    exact ⟨howner, hlater, htext, hbuckets⟩
  · exact hcloses.trans_follows (Or.inr h')

theorem Follows.owner (h : Follows e e') : e'.generation.owner = e.generation.owner := by
  rcases h with hkeeps | hcloses
  · rw [hkeeps.generation]
  · exact hcloses.owner

theorem Follows.current_le (h : Follows e e') :
    e.generation.current ≤ e'.generation.current := by
  rcases h with hkeeps | hcloses
  · exact Nat.le_of_eq (congrArg _ hkeeps.generation.symm)
  · exact Nat.le_of_lt hcloses.later

theorem Resembles.refl (e : EditBox) : Resembles e e :=
  ⟨Keeps.refl e, rfl, rfl, rfl, rfl⟩

theorem Resembles.trans (h : Resembles e e') (h' : Resembles e' e'') : Resembles e e'' where
  toKeeps := h.toKeeps.trans h'.toKeeps
  matcher := h'.matcher.trans h.matcher
  first := h'.first.trans h.first
  allowFunctions := h'.allowFunctions.trans h.allowFunctions
  allowFreeText := h'.allowFreeText.trans h.allowFreeText

/-! ### What touches the search, and what does not -/

/-- Highlights, errors and how the last key ended are for the reader only. -/
theorem resembles_of_view (e : EditBox) (highlighted : Option Nat) (error : Option String)
    (outcome : Option BoxState) : Resembles e { e with highlighted, error, outcome } :=
  ⟨⟨rfl, rfl, rfl, rfl, rfl, rfl⟩, rfl, rfl, rfl, rfl⟩

theorem resembles_settleHighlight (e : EditBox) : Resembles e e.settleHighlight := by
  unfold settleHighlight
  split
  · exact resembles_of_view e ..
  · split
    · exact Resembles.refl e
    · split
      · exact resembles_of_view e ..
      · split
        · exact Resembles.refl e
        · exact resembles_of_view e ..

theorem resembles_highlight (e : EditBox) (slot : Nat) : Resembles e (e.highlight slot) := by
  unfold highlight
  split
  · exact resembles_of_view e ..
  · exact Resembles.refl e

theorem keeps_place (e : EditBox) (first allowFunctions allowFreeText : Bool) :
    Keeps e (e.place first allowFunctions allowFreeText) := ⟨rfl, rfl, rfl, rfl, rfl, rfl⟩

theorem closes_reset (e : EditBox) : Closes e e.reset :=
  ⟨rfl, Nat.lt_succ_self _, rfl, rfl⟩

theorem closes_reopen (e : EditBox) (mode : OperatorMode) : Closes e (e.reopen mode) := by
  unfold reopen
  dsimp only
  split <;> exact ⟨rfl, Nat.lt_succ_self _, rfl, rfl⟩

theorem closes_trailing (e : EditBox) (first allowFunctions allowFreeText : Bool) :
    Closes e (trailing first allowFunctions allowFreeText e.generation.advance) :=
  ⟨rfl, Nat.lt_succ_self _, rfl, rfl⟩

theorem closes_editing (e : EditBox) (m : Matcher) (first : Bool) (mode : OperatorMode)
    (allowFreeText : Bool) : Closes e (editing m first mode allowFreeText e.generation.advance) :=
  ⟨rfl, Nat.lt_succ_self _, rfl, rfl⟩

/-- The ways in which the search of a box ends other than by typing: the box is emptied, it shows
its matcher as it was, or another box is opened in its place. -/
inductive Ends (e : EditBox) : EditBox → Prop
  | reset : Ends e e.reset
  | reopen (mode : OperatorMode) : Ends e (e.reopen mode)
  | trailing (first allowFunctions allowFreeText : Bool) :
    Ends e (trailing first allowFunctions allowFreeText e.generation.advance)
  | editing (m : Matcher) (first : Bool) (mode : OperatorMode) (allowFreeText : Bool) :
    Ends e (editing m first mode allowFreeText e.generation.advance)

theorem Ends.closes (h : Ends e e') : Closes e e' := by
  cases h with
  | reset => exact closes_reset e
  | reopen mode => exact closes_reopen e mode
  | trailing first allowFunctions allowFreeText => exact closes_trailing e ..
  | editing m first mode allowFreeText => exact closes_editing e m ..

end QueryBar.EditBox
