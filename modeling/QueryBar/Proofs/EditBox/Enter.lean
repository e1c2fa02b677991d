/-
Enter where it does not come down to what is highlighted.

A text that is marked as free text is not looked at any further.  It is committed as it stands where
free text is allowed.  Elsewhere the key is left to the owner, also from within the edit of a
matcher, which takes in enter on any other text (`answer_key_of_editing_eq_ignored_iff`).
-/
import QueryBar.Proofs.EditBox.Highlight

namespace QueryBar.EditBox

variable {e : EditBox} {around : Surroundings} {keys : KeySupply} {p : KeyPress}

/-- What follows the mark of a free text. -/
def literal (e : EditBox) : String := String.ofList (e.text.toList.drop freeTextMark.length)

theorem onEnter_of_quoted (h : e.isQuoted = true) (shift : Bool) :
    e.onEnter around keys shift = e.commitFreeText keys := if_pos h

theorem answer_commitFreeText_eq_ignored_iff :
    (e.commitFreeText keys).answer = .ignored ↔ e.allowFreeText = false := by
  unfold commitFreeText
  split
  · rename_i hallowed
    simp [hallowed]
  · rename_i hforbidden
    simpa using hforbidden

/-- **In an edit enter is left to the owner exactly if the text is marked as free text and free text
is not allowed.** -/
theorem answer_key_of_editing_eq_ignored_iff (hediting : e.matcher.isSome = true)
    (hkey : p.key = .enter ∨ p.key = .tab) :
    (e.key around keys p).answer = .ignored ↔ e.isQuoted = true ∧ e.allowFreeText = false := by
  let cleared : EditBox := { e with error := none, outcome := none }
  rw [answer_key, react_of_confirming cleared around keys hkey]
  cases hquoted : e.isQuoted with
  | true =>
      rw [onEnter_of_quoted (e := cleared) hquoted, answer_commitFreeText_eq_ignored_iff]
      simp [cleared]
  | false =>
      rw [answer_onEnter_eq_ignored_iff (e := cleared) hquoted]
      refine iff_of_false ?_ (by simp)
      rintro ⟨hclosed, -⟩
      exact absurd (hediting.symm.trans hclosed) (by simp)

/-- **A text that is marked as free text is committed as it stands**, where free text is allowed. -/
theorem key_of_quoted (around : Surroundings) (keys : KeySupply) (hquoted : e.isQuoted = true)
    (hallowed : e.allowFreeText = true) (hkey : p.key = .enter ∨ p.key = .tab) :
    let turn := e.key around keys p
    turn.answer = .committed ∧ turn.box.matcher = e.matcher ∧
      turn.notices = [.changed (some (.freeText (e.takeKey false keys).1 e.literal))] := by
  let cleared : EditBox := { e with error := none, outcome := none }
  have hcommitted : cleared.onEnter around keys p.shift =
      ⟨cleared.reset, (e.takeKey false keys).2,
        [.changed (some (.freeText (e.takeKey false keys).1 e.literal))], .committed⟩ := by
    rw [onEnter_of_quoted (e := cleared) hquoted]
    exact if_pos hallowed
  obtain ⟨outcome, hconfirmed⟩ := e.key_of_confirming around keys hkey
  rw [hconfirmed, hcommitted]
  exact ⟨rfl, rfl, rfl⟩

end QueryBar.EditBox
