/-
What operations other than typing do to the search of the open box.

`Bar.Follows` is `EditBox.Follows` for the open box, together with the configuration, which
never changes.  A change of the row leaves the open box alone or replaces it; a box that is
opened in its place takes the generation over at a higher count, so a replaced search is
ended like one that was reset.

Notices are acted on in order, and each of them only does such operations, so they need not
be told apart (`follows_takeTurn`).
-/
import QueryBar.Bar.Operation
import QueryBar.Proofs.Bar.Changes
import QueryBar.Proofs.EditBox.Typing

namespace QueryBar.Bar

/-- The configuration stays, and the search of the open box is kept or ended. -/
structure Follows (b b' : Bar) : Prop where
  config : b'.config = b.config
  box : b.box.Follows b'.box

variable {b b' b'' : Bar}

theorem Follows.refl (b : Bar) : Follows b b := ⟨rfl, EditBox.Follows.refl b.box⟩

theorem Follows.trans (h : Follows b b') (h' : Follows b' b'') : Follows b b'' :=
  ⟨h'.config.trans h.config, h.box.trans h'.box⟩

/-- Whatever else changes, the search is kept with the box. -/
theorem follows_of_box (hconfig : b'.config = b.config) (hbox : b'.box = b.box) : Follows b b' :=
  ⟨hconfig, hbox ▸ EditBox.Follows.refl b.box⟩

/-! ### Keeping in step with the row -/

theorem keeps_placeBox (b : Bar) : b.box.Keeps b.placeBox.box := by
  unfold placeBox
  dsimp only
  split <;> exact EditBox.keeps_place ..

theorem follows_placeBox (b : Bar) : Follows b b.placeBox := ⟨rfl, Or.inl (keeps_placeBox b)⟩

theorem follows_flagged (b : Bar) : Follows b b.flagBrackets.placeBox := by
  have hflagged : Follows b b.flagBrackets := follows_of_box rfl rfl
  exact hflagged.trans (follows_placeBox _)

theorem follows_rowChanged (b : Bar) : Follows b b.rowChanged := by
  have htold : Follows b.flagBrackets.placeBox b.rowChanged := follows_of_box rfl rfl
  exact (follows_flagged b).trans htold

theorem follows_useFunction (b : Bar) (f : Option QueryFunction) : Follows b (b.useFunction f) := by
  have hfunction : Follows b { b with function := f } := follows_of_box rfl rfl
  exact hfunction.trans (follows_placeBox _)

/-! ### Opening boxes -/

/-- A box that is opened ends the search of the one it replaces. -/
theorem follows_openAt (b : Bar) (place : Option Nat) : Follows b (b.openAt place) := by
  unfold openAt
  dsimp only
  split
  · exact Follows.refl b
  · refine ⟨rfl, Or.inr ?_⟩
    dsimp only
    split
    · exact EditBox.closes_editing b.box ..
    · exact EditBox.closes_trailing b.box ..

theorem follows_openTrailing (b : Bar) : Follows b b.openTrailing := follows_openAt b none

theorem follows_takeFocus (b : Bar) : Follows b b.takeFocus := by
  unfold takeFocus
  split
  · exact Follows.refl b
  · exact (follows_openTrailing b).trans (follows_of_box rfl rfl)

theorem follows_resetBox (b : Bar) : Follows b { b with box := b.box.reset } :=
  ⟨rfl, Or.inr (EditBox.closes_reset b.box)⟩

theorem follows_blur (b : Bar) : Follows b b.blur := by
  have hfocus : Follows b { b with hasFocus := false } := follows_of_box rfl rfl
  exact (hfocus.trans (follows_openTrailing _)).trans (follows_resetBox _)

/-! ### Changes of the row -/

theorem follows_add (b : Bar) (m : Matcher) : Follows b (b.add m) := by
  have hrow : Follows b { b with matchers := b.matchers ++ [m] } := follows_of_box rfl rfl
  exact hrow.trans (follows_rowChanged _)

theorem follows_update (b : Bar) (m : Matcher) : Follows b (b.update m).1 := by
  unfold update
  split
  · exact Follows.refl b
  · rename_i i _
    have hrow : Follows b { b with matchers := b.matchers.set i m } := follows_of_box rfl rfl
    exact (hrow.trans (follows_openTrailing _)).trans (follows_rowChanged _)

theorem follows_remove (b : Bar) (key : String) (closeEdit : Bool) :
    Follows b (b.remove key closeEdit).1 := by
  unfold remove
  dsimp only
  split
  · exact Follows.refl b
  · have hrow : Follows b { b with matchers := b.matchers.filter (·.key != key) } :=
      follows_of_box rfl rfl
    split
    · exact (hrow.trans (follows_openTrailing _)).trans (follows_rowChanged _)
    · exact hrow.trans (follows_rowChanged _)

theorem follows_deleteLast (b : Bar) : Follows b b.deleteLast := by
  unfold deleteLast
  split
  · exact follows_remove ..
  · split
    · exact follows_useFunction ..
    · exact Follows.refl b

theorem follows_deleteAll (b : Bar) : Follows b b.deleteAll := by
  have hrow : Follows b { b with matchers := [], function := none } := follows_of_box rfl rfl
  exact (hrow.trans (follows_openTrailing _)).trans (follows_rowChanged _)

/-- Where a matcher is put in before another, the search is kept or ended. -/
theorem follows_insertBefore {m : Matcher} {anchor : Option String}
    (h : b.insertBefore m anchor = .ok b') : Follows b b' := by
  unfold insertBefore at h
  split at h
  · obtain rfl := Except.ok.inj h
    exact follows_add b m
  · split at h
    · simp at h
    · obtain rfl := Except.ok.inj h
      refine Follows.trans ?_ (follows_rowChanged _)
      exact follows_of_box rfl rfl

theorem follows_swap (b : Bar) (key other : String) : Follows b (b.swap key other).1 := by
  unfold swap
  split
  · refine Follows.trans ?_ (follows_rowChanged _)
    exact follows_of_box rfl rfl
  · exact Follows.refl b

theorem follows_moveActive (b : Bar) (forward : Bool) : Follows b (b.moveActive forward).1 := by
  rcases b.moveActive_eq_or forward with hstays | ⟨_, _, hswap⟩
  · rw [hstays]
    exact Follows.refl b
  · rw [hswap]
    exact follows_swap ..

theorem follows_drop (b : Bar) (target type data : String) :
    Follows b (b.drop target type data).1 := by
  rcases b.drop_eq_or target type data with hstays | ⟨_, _, hswap⟩
  · rw [hstays]
    exact Follows.refl b
  · rw [hswap]
    exact follows_swap ..

theorem follows_sync (b : Bar) (matchers : List Matcher) : Follows b (b.sync matchers) := by
  unfold sync
  split
  · exact follows_of_box rfl rfl
  · have hrow : Follows b { b with matchers } := follows_of_box rfl rfl
    dsimp only
    split
    · exact (hrow.trans (follows_openTrailing _)).trans (follows_flagged _)
    · exact hrow.trans (follows_flagged _)

theorem follows_complete (b : Bar) : Follows b b.complete.1 := by
  unfold complete
  split
  · exact Follows.refl b
  · have hrow : Follows b { b with matchers := [], function := none, hasFocus := false } :=
      follows_of_box rfl rfl
    exact ((hrow.trans (follows_openTrailing _)).trans (follows_resetBox _)).trans
      (follows_rowChanged _)

/-! ### Selections -/

theorem follows_select (b : Bar) (place : Nat) : Follows b (b.select place) := by
  have hfocus : Follows b { b with hasFocus := true } := follows_of_box rfl rfl
  exact hfocus.trans (follows_openAt _ _)

theorem follows_editPrevious (b : Bar) : Follows b b.editPrevious := by
  unfold editPrevious
  split
  · exact follows_openAt ..
  · exact Follows.refl b

theorem follows_editNext (b : Bar) : Follows b b.editNext := by
  unfold editNext
  split
  · exact follows_openAt ..
  · exact Follows.refl b

theorem follows_toFirst (b : Bar) : Follows b b.toFirst.1 := by
  unfold toFirst
  split
  · exact Follows.refl b
  · exact follows_openAt ..

theorem follows_toEnd (b : Bar) : Follows b b.toEnd.1 := by
  unfold toEnd
  split
  · exact Follows.refl b
  · exact follows_openTrailing b

/-! ### Acting for the box -/

theorem follows_heed (edited : Option String) (b : Bar) (n : Notice) :
    Follows b (heed edited b n) := by
  cases n with
  | changed m =>
      cases m with
      | some m =>
          simp only [heed]
          split
          · exact follows_update ..
          · exact follows_add ..
      | none =>
          simp only [heed]
          split
          · exact follows_remove ..
          · exact Follows.refl b
  | consulted m inserting => exact Follows.refl b
  | insert m =>
      show Follows b ((b.insertBefore m edited).toOption.getD b)
      cases h : b.insertBefore m edited with
      | ok b' => exact follows_insertBefore h
      | error _ => exact Follows.refl b
  | editPrevious deleting =>
      simp only [heed]
      split
      · exact follows_remove ..
      · exact follows_editPrevious b
  | editNext => exact follows_editNext b
  | focus =>
      simp only [heed]
      split
      · exact follows_takeFocus b
      · exact Follows.refl b
  | cancel => exact follows_openTrailing b
  | changing =>
      simp only [heed]
      split
      · exact follows_of_box rfl rfl
      · exact Follows.refl b
  | setFunction f => exact follows_useFunction ..
  | deleteFunction => exact follows_useFunction ..

theorem follows_foldl_heed (edited : Option String) (notices : List Notice) (b : Bar) :
    Follows b (notices.foldl (heed edited) b) := by
  induction notices generalizing b with
  | nil => exact Follows.refl b
  | cons n rest ih => exact (follows_heed edited b n).trans (ih _)

/-- **Acting on the notices of a turn keeps the search that the turn left, or ends it.** -/
theorem follows_takeTurn {α : Type} (b : Bar) (turn : Turn α) :
    Follows { b with box := turn.box } (b.takeTurn turn).1 := by
  have hkeys : Follows { b with box := turn.box } { b with box := turn.box, keys := turn.keys } :=
    follows_of_box rfl rfl
  exact hkeys.trans (follows_foldl_heed _ turn.notices _)

/-- Where the turn itself keeps the search or ends it, so does the bar. -/
theorem follows_takeTurn_of_box {α : Type} (turn : Turn α) (h : b.box.Follows turn.box) :
    Follows b (b.takeTurn turn).1 := by
  have hturn : Follows b { b with box := turn.box } := ⟨rfl, h⟩
  exact hturn.trans (follows_takeTurn b turn)

theorem follows_choose (b : Bar) (slot : Nat) (insert : Bool) :
    Follows b (b.choose slot insert).1 :=
  follows_takeTurn_of_box _ (EditBox.course_select ..).follows

theorem follows_focus (b : Bar) : Follows b b.focus :=
  follows_takeTurn_of_box (b.box.focus b.keys) (EditBox.Follows.refl b.box)

theorem follows_command (b : Bar) (p : KeyPress) : Follows b (b.command p).1 := by
  unfold command
  cases p.key with
  | arrowLeft =>
      dsimp only
      split
      · exact follows_openAt ..
      · split
        · exact follows_moveActive b false
        · exact Follows.refl b
  | arrowRight =>
      dsimp only
      split
      · exact follows_openAt ..
      · split
        · exact follows_moveActive b true
        · exact Follows.refl b
  | backspace =>
      dsimp only
      split
      · exact follows_deleteLast b
      · split
        · exact follows_deleteAll b
        · exact Follows.refl b
  | enter =>
      have hcomplete := follows_complete b
      dsimp only
      split <;> rename_i h <;> rw [h] at hcomplete <;> exact hcomplete
  | home => exact follows_toFirst b
  | finish => exact follows_toEnd b
  | arrowUp => exact Follows.refl b
  | arrowDown => exact Follows.refl b
  | pageUp => exact Follows.refl b
  | pageDown => exact Follows.refl b
  | tab => exact Follows.refl b
  | escape => exact Follows.refl b

theorem follows_key (b : Bar) (p : KeyPress) : Follows b (b.key p).1 := by
  have hturn : Follows b (b.takeTurn (b.box.key b.surroundings b.keys p)).1 :=
    follows_takeTurn_of_box _ (EditBox.course_key ..).follows
  unfold key
  dsimp only
  split
  · exact hturn.trans (follows_command _ p)
  · exact hturn

theorem follows_highlight (b : Bar) (slot : Nat) : Follows b (b.highlight slot) :=
  ⟨rfl, Or.inl (EditBox.resembles_highlight b.box slot).toKeeps⟩

end QueryBar.Bar
