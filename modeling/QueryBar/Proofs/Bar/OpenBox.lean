/-
What is true of the open box, whatever is done to the bar.

The bar itself does only three things to its open box: it tells it its place, it empties it,
and it opens another one.  So a property of boxes that a new box has, and that these and
the box's own operations keep (`EditBox.Invariant`), is true of the open box of every bar
that can be reached (`EditBox.Invariant.reachable`).
-/
import QueryBar.Proofs.Bar.Selection

namespace QueryBar

/-- A new box has the property, and nothing that can be done to a box takes it away. -/
structure EditBox.Invariant (P : EditBox → Prop) : Prop where
  trailing : ∀ first allowFunctions allowFreeText generation,
    P (.trailing first allowFunctions allowFreeText generation)
  editing : ∀ m first mode allowFreeText generation,
    P (.editing m first mode allowFreeText generation)
  place : ∀ e first allowFunctions allowFreeText, P e →
    P (e.place first allowFunctions allowFreeText)
  reset : ∀ e, P e → P e.reset
  typeText : ∀ e around keys text, P e → P (e.typeText around keys text).box
  select : ∀ e around keys slot insert, P e → P (e.select around keys slot insert).box
  key : ∀ e around keys p, P e → P (e.key around keys p).box
  highlight : ∀ e slot, P e → P (e.highlight slot)
  takeAnswer : ∀ e c a, P e → P (e.takeAnswer c a).1

namespace Bar

variable {P : EditBox → Prop} {b b' : Bar}

section

variable (hP : EditBox.Invariant P)

include hP

/-! ### Keeping in step with the row -/

theorem box_placeBox (h : P b.box) : P b.placeBox.box := by
  unfold placeBox
  dsimp only
  split <;> exact hP.place _ _ _ _ h

theorem box_rowChanged (h : P b.box) : P b.rowChanged.box := box_placeBox (b := b.flagBrackets) hP h

theorem box_useFunction (h : P b.box) (f : Option QueryFunction) : P (b.useFunction f).box :=
  box_placeBox (b := { b with function := f }) hP h

/-! ### Opening boxes -/

theorem box_openAt (h : P b.box) (place : Option Nat) : P (b.openAt place).box := by
  unfold openAt
  dsimp only
  split
  · exact h
  · dsimp only
    split
    · exact hP.editing ..
    · exact hP.trailing ..

theorem box_openTrailing (h : P b.box) : P b.openTrailing.box := box_openAt hP h none

theorem box_takeFocus (h : P b.box) : P b.takeFocus.box := by
  unfold takeFocus
  split
  · exact h
  · exact box_openTrailing hP h

theorem box_blur (h : P b.box) : P b.blur.box :=
  hP.reset _ (box_openTrailing (b := { b with hasFocus := false }) hP h)

/-! ### Changes of the row -/

theorem box_update (h : P b.box) (m : Matcher) : P (b.update m).1.box := by
  unfold update
  split
  · exact h
  · rename_i i _
    have hclosed := box_openTrailing (b := { b with matchers := b.matchers.set i m }) hP h
    exact box_rowChanged hP hclosed

theorem box_remove (h : P b.box) (key : String) (closeEdit : Bool) :
    P (b.remove key closeEdit).1.box := by
  unfold remove
  dsimp only
  split
  · exact h
  · refine box_rowChanged hP ?_
    split
    · exact box_openTrailing hP h
    · exact h

theorem box_deleteLast (h : P b.box) : P b.deleteLast.box := by
  unfold deleteLast
  split
  · exact box_remove hP h ..
  · split
    · exact box_useFunction hP h none
    · exact h

theorem box_deleteAll (h : P b.box) : P b.deleteAll.box := by
  have hclosed := box_openTrailing (b := { b with matchers := [], function := none }) hP h
  exact box_rowChanged hP hclosed

theorem box_insertBefore (h : P b.box) {m : Matcher} {anchor : Option String}
    (hinsert : b.insertBefore m anchor = .ok b') : P b'.box := by
  unfold insertBefore at hinsert
  split at hinsert
  · obtain rfl := Except.ok.inj hinsert
    exact box_rowChanged (b := { b with matchers := _ }) hP h
  · split at hinsert
    · contradiction
    · obtain rfl := Except.ok.inj hinsert
      exact box_rowChanged (b := { b with matchers := _, active := _ }) hP h

theorem box_swap (h : P b.box) (key other : String) : P (b.swap key other).1.box := by
  unfold swap
  split
  · exact box_rowChanged (b := { b with matchers := _, active := _ }) hP h
  · exact h

theorem box_moveActive (h : P b.box) (forward : Bool) : P (b.moveActive forward).1.box := by
  rcases b.moveActive_eq_or forward with hstays | ⟨_, _, hswap⟩
  · rw [hstays]
    exact h
  · rw [hswap]
    exact box_swap hP h ..

theorem box_drop (h : P b.box) (target type data : String) :
    P (b.drop target type data).1.box := by
  rcases b.drop_eq_or target type data with hstays | ⟨_, _, hswap⟩
  · rw [hstays]
    exact h
  · rw [hswap]
    exact box_swap hP h ..

theorem box_sync (h : P b.box) (row : List Matcher) : P (b.sync row).box := by
  unfold sync
  split
  · exact h
  · refine box_placeBox (b := flagBrackets _) hP ?_
    show P (ite _ _ _ : Bar).box
    split
    · exact box_openTrailing (b := { b with matchers := row }) hP h
    · exact h

theorem box_complete (h : P b.box) : P b.complete.1.box := by
  unfold complete
  split
  · exact h
  · have hclosed := box_openTrailing
      (b := { b with matchers := [], function := none, hasFocus := false }) hP h
    exact box_rowChanged (b := { openTrailing _ with box := _ }) hP (hP.reset _ hclosed)

/-! ### Selections -/

theorem box_editPrevious (h : P b.box) : P b.editPrevious.box := by
  unfold editPrevious
  split
  · exact box_openAt hP h _
  · exact h

theorem box_editNext (h : P b.box) : P b.editNext.box := by
  unfold editNext
  split
  · exact box_openAt hP h _
  · exact h

theorem box_toFirst (h : P b.box) : P b.toFirst.1.box := by
  unfold toFirst
  split
  · exact h
  · exact box_openAt hP h _

theorem box_toEnd (h : P b.box) : P b.toEnd.1.box := by
  unfold toEnd
  split
  · exact h
  · exact box_openTrailing hP h

/-! ### Acting for the box -/

theorem box_heed (h : P b.box) (edited : Option String) (n : Notice) :
    P (heed edited b n).box := by
  cases n with
  | changed m =>
      cases m with
      | some m =>
          simp only [heed]
          split
          · exact box_update hP h m
          · exact box_rowChanged (b := { b with matchers := _ }) hP h
      | none =>
          simp only [heed]
          split
          · exact box_remove hP h ..
          · exact h
  | consulted m inserting => exact h
  | insert m =>
      show P ((b.insertBefore m edited).toOption.getD b).box
      cases hinsert : b.insertBefore m edited with
      | ok b' => exact box_insertBefore hP h hinsert
      | error _ => exact h
  | editPrevious deleting =>
      simp only [heed]
      split
      · exact box_remove hP h ..
      · exact box_editPrevious hP h
  | editNext => exact box_editNext hP h
  | focus =>
      simp only [heed]
      split
      · exact box_takeFocus hP h
      · exact h
  | cancel => exact box_openTrailing hP h
  | changing =>
      simp only [heed]
      split
      · exact h
      · exact h
  | setFunction f => exact box_useFunction hP h _
  | deleteFunction => exact box_useFunction hP h _

/-- **What a turn leaves true of the box stays true of the open one**, whatever the turn wants of
the bar. -/
theorem box_takeTurn {α : Type} {turn : Turn α} (h : P turn.box) : P (b.takeTurn turn).1.box := by
  have hfold : ∀ (notices : List Notice) (edited : Option String) {b : Bar}, P b.box →
      P (notices.foldl (heed edited) b).box := by
    intro notices edited
    induction notices with
    | nil => exact id
    | cons n rest ih => exact fun h => ih (box_heed hP h edited n)
  exact hfold turn.notices _ (b := { b with box := turn.box, keys := turn.keys }) h

theorem box_input (h : P b.box) (text : String) : P (b.input text).1.box :=
  box_takeTurn hP (hP.typeText _ b.surroundings b.keys text h)

theorem box_choose (h : P b.box) (slot : Nat) (insert : Bool) : P (b.choose slot insert).1.box :=
  box_takeTurn hP (hP.select _ b.surroundings b.keys slot insert h)

theorem box_focus (h : P b.box) : P b.focus.box := by
  have hturn : P (b.box.focus b.keys).box := h
  exact box_takeTurn hP hturn

theorem box_command (h : P b.box) (p : KeyPress) : P (b.command p).1.box := by
  unfold command
  cases p.key with
  | arrowLeft =>
      dsimp only
      split
      · exact box_openAt hP h _
      · split
        · exact box_moveActive hP h false
        · exact h
  | arrowRight =>
      dsimp only
      split
      · exact box_openAt hP h _
      · split
        · exact box_moveActive hP h true
        · exact h
  | backspace =>
      dsimp only
      split
      · exact box_deleteLast hP h
      · split
        · exact box_deleteAll hP h
        · exact h
  | enter =>
      have hcomplete := box_complete hP h
      dsimp only
      split <;> rename_i heq <;> rw [heq] at hcomplete <;> exact hcomplete
  | home => exact box_toFirst hP h
  | finish => exact box_toEnd hP h
  | arrowUp | arrowDown | pageUp | pageDown | tab | escape => exact h

theorem box_key (h : P b.box) (p : KeyPress) : P (b.key p).1.box := by
  have hturn : P (b.takeTurn (b.box.key b.surroundings b.keys p)).1.box :=
    box_takeTurn hP (hP.key _ _ _ p h)
  unfold key
  dsimp only
  split
  · exact box_command hP hturn p
  · exact hturn

/-! ### All operations -/

/-- **No operation takes the property away from the open box.** -/
theorem box_perform (h : P b.box) (operation : Operation) : P (b.perform operation).1.box := by
  cases operation with
  | input text => exact box_input hP h text
  | compose operator comparison => exact box_input hP h _
  | key press => exact box_key hP h press
  | choose slot insert => exact box_choose hP h slot insert
  | highlight slot => exact hP.highlight _ slot h
  | takeAnswer answer => exact hP.takeAnswer _ _ answer h
  | focus => exact box_focus hP h
  | blur => exact box_blur hP h
  | add m => exact box_rowChanged (b := { b with matchers := _ }) hP h
  | update m => exact box_update hP h m
  | delete key => exact box_remove hP h key true
  | deleteLast => exact box_deleteLast hP h
  | deleteAll => exact box_deleteAll hP h
  | insertBefore m anchor =>
      unfold perform
      dsimp only
      split
      · rename_i hinsert
        exact box_insertBefore hP h hinsert
      · exact h
  | swap key other => exact box_swap hP h key other
  | moveActive forward => exact box_moveActive hP h forward
  | select place => exact box_openAt (b := { b with hasFocus := true }) hP h _
  | selectPrevious => exact box_openAt hP h _
  | selectNext => exact box_openAt hP h _
  | editPrevious => exact box_editPrevious hP h
  | editNext => exact box_editNext hP h
  | toFirst => exact box_toFirst hP h
  | toEnd => exact box_toEnd hP h
  | sync row => exact box_sync hP h row
  | complete => exact box_complete hP h
  | drop target type data => exact box_drop hP h target type data

theorem box_equips (h : P b.box) (hequips : Watch.Equips b b') : P b'.box := by
  cases hequips with
  | matchers row => exact box_placeBox (b := flagBrackets { b with matchers := row }) hP h
  | keys keys => exact h
  | validator check => exact h

end

end Bar

/-- **The open box of every bar that can be reached has the property.** -/
theorem EditBox.Invariant.reachable {P : EditBox → Prop} (hP : EditBox.Invariant P) {b : Bar}
    (h : b.Reachable) : P b.box := by
  induction h with
  | new config owner => exact hP.trailing ..
  | equip _ hequips ih => exact Bar.box_equips hP ih hequips
  | step _ operation ih => exact Bar.box_perform hP ih operation

end QueryBar
