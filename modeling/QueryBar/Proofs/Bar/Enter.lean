/-
Enter while a matcher is edited.

The row is handed out only on an enter that the open box leaves to the bar.  The edit of a matcher
takes enter in whatever is typed and whatever is offered, with one exception: a text that is marked
as free text goes past everything that an edit would do with the key, and where free text is not
allowed nothing at all is done with it in the box.  The bar then hands the row out from within the
edit (`enter_stays_in_edit_iff`).
-/
import QueryBar.Proofs.Bar.Derived
import QueryBar.Proofs.Bar.Loading
import QueryBar.Proofs.EditBox.Enter

namespace QueryBar

/-- The edit took the key: it was handled there, or the edit was committed or left. -/
def KeyResponse.staysInEdit : KeyResponse → Bool
  | .edit .handled | .edit .committed | .edit .cancelled => true
  | _ => false

namespace Bar

variable {b : Bar} {p : KeyPress}

/-- **An enter that does not stay in the edit concludes the row.** -/
theorem staysInEdit_enter (b : Bar) (hkey : p.key = .enter) :
    (b.key p).2.staysInEdit = !(b.key p).2.concludes := by
  have hconcludes := concludes_enter_iff b hkey
  cases hanswer : (b.box.key b.surroundings b.keys p).answer with
  | ignored =>
      have hconcluded := hconcludes.mpr hanswer
      rw [hconcluded]
      cases hresponse : (b.key p).2 with
      | completed _ | incomplete _ => rfl
      | ignored | handled | edit _ =>
          rw [hresponse] at hconcluded
          contradiction
  | handled | committed | cancelled =>
      rw [key_of_used (by rw [hanswer]; simp), hanswer]
      rfl

/-- **Enter stays in the edit of a matcher**, whatever is typed and offered there, exactly if the text
is not marked as free text or free text is allowed.  Otherwise it is taken for the wish to have
the row handed out. -/
theorem enter_stays_in_edit_iff (h : Reachable b) (hactive : b.active.isSome = true)
    (hkey : p.key = .enter) :
    ((b.key p).2.staysInEdit = true ↔ (b.box.isQuoted = true → b.allowsFreeText = true)) ∧
      ((b.key p).2.concludes = true ↔ b.box.isQuoted = true ∧ b.allowsFreeText = false) := by
  have hediting : b.box.matcher.isSome = true := (paired_reachable h).symm.trans hactive
  have hconcludes : (b.key p).2.concludes = true ↔
      b.box.isQuoted = true ∧ b.allowsFreeText = false := by
    rw [concludes_enter_iff b hkey, ← (abreast_reachable h).freeText]
    exact EditBox.answer_key_of_editing_eq_ignored_iff hediting (Or.inl hkey)
  refine ⟨?_, hconcludes⟩
  rw [staysInEdit_enter b hkey, Bool.not_eq_true', Bool.eq_false_iff, ne_eq, hconcludes, not_and,
    Bool.not_eq_false]

/-- With a blank in front the text is not marked, and enter leaves the edit. -/
theorem enter_stays_in_edit_iff_twoColours :
    let b := twoColours.run [.select 1, .input " \"blue"]
    let p : KeyPress := { key := .enter, shift := true }
    b.Reachable ∧ b.active.isSome = true ∧ p.key = .enter ∧ b.allowsFreeText = false ∧
      (b.key p).2.staysInEdit = true ∧ (b.key p).1.matchers = b.matchers := by
  intro b p
  have hreachable : b.Reachable := Reachable.run (.equip (.new ..) (.matchers _)) _
  have hactive : b.active.isSome = true := by decide +kernel
  have hplain : b.box.isQuoted = false := by decide +kernel
  have hstays := (enter_stays_in_edit_iff (p := p) hreachable hactive rfl).1.mpr fun hquoted =>
    absurd (hplain.symm.trans hquoted) (by simp)
  exact ⟨hreachable, hactive, rfl, by decide +kernel, hstays, by decide +kernel⟩

/-- **A marked text makes enter hand the row out from within an edit**, where free text is not
allowed.  The mark may have been typed, or it may be that of the matcher that was opened. -/
theorem enter_concludes_quoted_edit :
    let typed := twoColours.run [.select 1, .input "\"blue"]
    let opened := twoColours.run [.add (.freeText "c" "blue"), .select 2]
    let p : KeyPress := { key := .enter }
    (typed.Reachable ∧ typed.active = some 1 ∧ typed.matchers.length = 2 ∧
      (typed.key p).2.concludes = true ∧ (typed.key p).1.matchers = []) ∧
    (opened.Reachable ∧ opened.active = some 2 ∧ opened.matchers.length = 3 ∧
      (opened.key p).2.concludes = true ∧ (opened.key p).1.matchers = []) := by
  intro typed opened p
  have hset : Reachable twoColours := .equip (.new ..) (.matchers _)
  refine ⟨⟨hset.run _, ?_⟩, hset.run _, ?_⟩
  · decide +kernel
  · decide +kernel

end Bar

end QueryBar
