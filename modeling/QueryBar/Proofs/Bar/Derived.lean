/-
What a bar works out from its row, it has always worked out from the present one.

The places of unpaired brackets, and what the open box has been told of its place and of free
text, are kept beside the row and the active function, and are not asked for again.  They are
right at any time (`Abreast`): whatever changes the row or the function has them worked out anew
in the end, whatever they were before (`abreast_flagged`, `abreast_placeBox`), and a box that is
opened is told what holds when it is opened.  Where no other box is opened because the right one
is open already, nothing that they depend on has changed since.

A turn of the open box makes no difference to what the box has been told (`SamePlace`), so that it
is only the notices that matter.

That there is a matcher at the active place is true of every bar that was set up before it was
used (`Used`), also where rows are taken from outside.
-/
import QueryBar.Proofs.Bar.Upkeep

namespace QueryBar

/-! ### What a box has been told -/

namespace EditBox

/-- The second box has been told the same of its place and of free text. -/
structure SamePlace (e e' : EditBox) : Prop where
  first : e'.first = e.first
  allowFreeText : e'.allowFreeText = e.allowFreeText

variable {e e' e'' : EditBox} {around : Surroundings} {keys : KeySupply} {asked : Bool}
  {turn : Turn Reaction}

theorem SamePlace.refl (e : EditBox) : e.SamePlace e := ⟨rfl, rfl⟩

theorem SamePlace.trans (h : e.SamePlace e') (h' : e'.SamePlace e'') : e.SamePlace e'' :=
  ⟨h'.first.trans h.first, h'.allowFreeText.trans h.allowFreeText⟩

theorem Resembles.samePlace (h : e.Resembles e') : e.SamePlace e' := ⟨h.first, h.allowFreeText⟩

theorem samePlace_reopen (e : EditBox) (mode : OperatorMode) : e.SamePlace (e.reopen mode) := by
  unfold reopen
  dsimp only
  split <;> exact ⟨rfl, rfl⟩

/-- A turn makes no difference to what the box has been told. -/
theorem Course.samePlace (h : Course e around keys asked turn) : e.SamePlace turn.box := by
  have hreset : e.SamePlace e.reset := ⟨rfl, rfl⟩
  cases h with
  | bracketed hbox _ _ => exact (e.samePlace_reopen _).trans hbox.samePlace
  | quiet hbox | turned hbox _ _ | refused hbox | objected hbox | inserted hbox _ _ _ =>
      exact hbox.samePlace
  | emptied hbox | cleared hbox | function hbox _ _ _ | committed hbox _ _ _ | captured hbox _ =>
      exact hreset.trans hbox.samePlace

/-- Nor does a new text, whatever is made of it. -/
theorem samePlace_typeText (e : EditBox) (around : Surroundings) (keys : KeySupply)
    (text : String) : e.SamePlace (e.typeText around keys text).box := by
  have hsettled : ∀ typed : EditBox, e.SamePlace typed → e.SamePlace typed.settleHighlight :=
    fun typed h => h.trans (resembles_settleHighlight typed).samePlace
  unfold typeText
  dsimp only
  split
  · exact hsettled _ ⟨rfl, rfl⟩
  · split
    · rename_i b _
      generalize hbox : EditBox.settleHighlight _ = typed
      have htyped : e.SamePlace typed := by
        rw [← hbox]
        exact hsettled _ ⟨rfl, rfl⟩
      exact htyped.trans (typed.course_takeBracket around keys b).samePlace
    · exact hsettled _ ⟨rfl, rfl⟩

end EditBox

namespace Bar

/-! ### What the bar has worked out -/

/-- The open box stands at the start of the row or of a group. -/
def startsGroup (b : Bar) : Bool :=
  match b.active with
  | none => b.matchers.isEmpty
  | some i => b.isFirst i

/-- What has been worked out from the row and the function agrees with them. -/
structure Abreast (b : Bar) : Prop where
  /-- The brackets without a partner are those of the row. -/
  unbalanced : b.unbalanced = Row.unbalanced (b.matchers.map (·.comparison))
  first : b.box.first = b.startsGroup
  freeText : b.box.allowFreeText = b.allowsFreeText

variable {b b' : Bar} {operation : Operation} {e : RowChange}

/-- The bars agree in everything that is worked out and in what it is worked out from. -/
theorem Abreast.congr (h : b.Abreast) (hconfig : b'.config = b.config)
    (hrow : b'.matchers = b.matchers) (hactive : b'.active = b.active)
    (hfunction : b'.function = b.function) (hunbalanced : b'.unbalanced = b.unbalanced)
    (hbox : b.box.SamePlace b'.box) : b'.Abreast where
  unbalanced := by rw [hunbalanced, hrow]; exact h.unbalanced
  first := by
    unfold startsGroup isFirst
    rw [hbox.first, hactive, hrow]
    exact h.first
  freeText := by
    unfold allowsFreeText
    rw [hbox.allowFreeText, hconfig, hfunction]
    exact h.freeText

theorem Abreast.box (h : b.Abreast) {e : EditBox} (he : b.box.SamePlace e) :
    Abreast { b with box := e } := h.congr rfl rfl rfl rfl rfl he

/-- A box that is told its place is told what holds there. -/
theorem abreast_placeBox (h : b.unbalanced = Row.unbalanced (b.matchers.map (·.comparison))) :
    b.placeBox.Abreast := by
  have hstarts : b.placeBox.startsGroup = b.startsGroup := rfl
  have hallows : b.placeBox.allowsFreeText = b.allowsFreeText := rfl
  refine ⟨h, ?_, ?_⟩
  · rw [hstarts]
    unfold placeBox startsGroup
    cases b.active <;> rfl
  · rw [hallows]
    unfold placeBox
    cases b.active <;> rfl

theorem abreast_flagged (b : Bar) : b.flagBrackets.placeBox.Abreast := abreast_placeBox rfl

/-- **After a change of the row all is worked out anew**, whatever it was before. -/
theorem abreast_rowChanged (b : Bar) : b.rowChanged.Abreast :=
  (abreast_flagged b).congr rfl rfl rfl rfl rfl (EditBox.SamePlace.refl _)

theorem abreast_useFunction (h : b.Abreast) (f : Option QueryFunction) :
    (b.useFunction f).Abreast :=
  abreast_placeBox (b := { b with function := f }) h.unbalanced

/-- A box that is opened is told what holds at its place. -/
theorem abreast_openAt (h : b.Abreast) (place : Option Nat) : (b.openAt place).Abreast := by
  unfold openAt
  dsimp only
  generalize (place.bind fun i => b.matchers[i]?.map fun m => (i, m)) = target
  split
  · exact h
  · cases target <;> exact ⟨h.unbalanced, rfl, rfl⟩

theorem abreast_takeFocus (h : b.Abreast) : b.takeFocus.Abreast := by
  unfold takeFocus
  split
  · exact h
  · exact (abreast_openAt h none).congr rfl rfl rfl rfl rfl (EditBox.SamePlace.refl _)

theorem abreast_blur (h : b.Abreast) : b.blur.Abreast := by
  have hfocus : Abreast { b with hasFocus := false } :=
    h.congr rfl rfl rfl rfl rfl (EditBox.SamePlace.refl _)
  exact (abreast_openAt hfocus none).box ⟨rfl, rfl⟩

/-! ### Changes of the row -/

theorem abreast_update (h : b.Abreast) (m : Matcher) : (b.update m).1.Abreast := by
  unfold update
  split
  · exact h
  · exact abreast_rowChanged _

theorem abreast_remove (h : b.Abreast) (key : String) (closeEdit : Bool) :
    (b.remove key closeEdit).1.Abreast := by
  unfold remove
  dsimp only
  split
  · exact h
  · exact abreast_rowChanged _

theorem abreast_deleteLast (h : b.Abreast) : b.deleteLast.Abreast := by
  unfold deleteLast
  split
  · exact abreast_remove h ..
  · split
    · exact abreast_useFunction h none
    · exact h

theorem abreast_insertBefore {m : Matcher} {anchor : Option String}
    (h : b.insertBefore m anchor = .ok b') : b'.Abreast := by
  unfold insertBefore at h
  split at h
  · obtain rfl := Except.ok.inj h
    exact abreast_rowChanged _
  · split at h
    · contradiction
    · obtain rfl := Except.ok.inj h
      exact abreast_rowChanged _

theorem abreast_swap (h : b.Abreast) (key other : String) : (b.swap key other).1.Abreast := by
  unfold swap
  split
  · exact abreast_rowChanged _
  · exact h

theorem abreast_moveActive (h : b.Abreast) (forward : Bool) :
    (b.moveActive forward).1.Abreast := by
  rcases b.moveActive_eq_or forward with hstays | ⟨_, _, hswap⟩
  · rw [hstays]
    exact h
  · rw [hswap]
    exact abreast_swap h ..

theorem abreast_drop (h : b.Abreast) (target type data : String) :
    (b.drop target type data).1.Abreast := by
  rcases b.drop_eq_or target type data with hstays | ⟨_, _, hswap⟩
  · rw [hstays]
    exact h
  · rw [hswap]
    exact abreast_swap h ..

/-- Also where the echo of an edit is not taken. -/
theorem abreast_sync (h : b.Abreast) (row : List Matcher) : (b.sync row).Abreast := by
  unfold sync
  split
  · exact h.congr rfl rfl rfl rfl rfl (EditBox.SamePlace.refl _)
  · exact abreast_flagged _

theorem abreast_complete (h : b.Abreast) : b.complete.1.Abreast := by
  unfold complete
  split
  · exact h
  · exact abreast_rowChanged _

/-! ### Selections -/

theorem abreast_select (h : b.Abreast) (place : Nat) : (b.select place).Abreast := by
  have hfocus : Abreast { b with hasFocus := true } :=
    h.congr rfl rfl rfl rfl rfl (EditBox.SamePlace.refl _)
  exact abreast_openAt hfocus _

theorem abreast_editPrevious (h : b.Abreast) : b.editPrevious.Abreast := by
  unfold editPrevious
  split
  · exact abreast_openAt h _
  · exact h

theorem abreast_editNext (h : b.Abreast) : b.editNext.Abreast := by
  unfold editNext
  split
  · exact abreast_openAt h _
  · exact h

theorem abreast_toFirst (h : b.Abreast) : b.toFirst.1.Abreast := by
  unfold toFirst
  split
  · exact h
  · exact abreast_openAt h _

theorem abreast_toEnd (h : b.Abreast) : b.toEnd.1.Abreast := by
  unfold toEnd
  split
  · exact h
  · exact abreast_openAt h _

/-! ### Acting for the box -/

theorem abreast_heed (h : b.Abreast) (edited : Option String) (n : Notice) :
    (heed edited b n).Abreast := by
  cases n with
  | changed m =>
      cases m with
      | some m =>
          simp only [heed]
          split
          · exact abreast_update h m
          · exact abreast_rowChanged _
      | none =>
          simp only [heed]
          split
          · exact abreast_remove h ..
          · exact h
  | consulted m inserting => exact h
  | insert m =>
      show ((b.insertBefore m edited).toOption.getD b).Abreast
      cases hinsert : b.insertBefore m edited with
      | ok b' => exact abreast_insertBefore hinsert
      | error _ => exact h
  | editPrevious deleting =>
      simp only [heed]
      split
      · exact abreast_remove h ..
      · exact abreast_editPrevious h
  | editNext => exact abreast_editNext h
  | focus =>
      simp only [heed]
      split
      · exact abreast_takeFocus h
      · exact h
  | cancel => exact abreast_openAt h none
  | changing =>
      simp only [heed]
      split
      · exact h.congr rfl rfl rfl rfl rfl (EditBox.SamePlace.refl _)
      · exact h
  | setFunction f => exact abreast_useFunction h _
  | deleteFunction => exact abreast_useFunction h _

/-- **Whatever a turn wants of the bar, all stays as it is worked out**, if the box has not been
told otherwise of its place. -/
theorem abreast_takeTurn {α : Type} {turn : Turn α} (h : b.Abreast)
    (hbox : b.box.SamePlace turn.box) : (b.takeTurn turn).1.Abreast := by
  have hfold : ∀ (notices : List Notice) (edited : Option String) {b : Bar}, b.Abreast →
      (notices.foldl (heed edited) b).Abreast := by
    intro notices edited
    induction notices with
    | nil => exact id
    | cons n rest ih => exact fun h => ih (abreast_heed h edited n)
  exact hfold _ _ (h.congr rfl rfl rfl rfl rfl hbox)

theorem abreast_input (h : b.Abreast) (text : String) : (b.input text).1.Abreast :=
  abreast_takeTurn h (EditBox.samePlace_typeText ..)

theorem abreast_focus (h : b.Abreast) : b.focus.Abreast :=
  abreast_takeTurn h (EditBox.SamePlace.refl _)

/-! ### All operations -/

theorem abreast_command (h : b.Abreast) (p : KeyPress) : (b.command p).1.Abreast := by
  unfold command
  cases hkey : p.key with
  | arrowLeft =>
      dsimp only
      split
      · exact abreast_openAt h _
      · split
        · exact abreast_moveActive h false
        · exact h
  | arrowRight =>
      dsimp only
      split
      · exact abreast_openAt h _
      · split
        · exact abreast_moveActive h true
        · exact h
  | backspace =>
      dsimp only
      split
      · exact abreast_deleteLast h
      · split
        · exact abreast_rowChanged _
        · exact h
  | enter =>
      have hcomplete := abreast_complete h
      dsimp only
      split <;> rename_i heq <;> rw [heq] at hcomplete <;> exact hcomplete
  | home => exact abreast_toFirst h
  | finish => exact abreast_toEnd h
  | _ => exact h

theorem abreast_key (h : b.Abreast) (p : KeyPress) : (b.key p).1.Abreast := by
  rcases b.key_cases p with ⟨-, hkey⟩ | ⟨hbox, -, hkey⟩
  · rw [hkey]
    exact abreast_takeTurn h (b.box.course_key b.surroundings b.keys p).samePlace
  · rw [hkey]
    exact abreast_command (h.box hbox.samePlace) p

/-- **No operation leaves anything behind that was worked out before.** -/
theorem abreast_perform (h : b.Abreast) (operation : Operation) :
    (b.perform operation).1.Abreast := by
  cases operation with
  | input text => exact abreast_input h text
  | compose operator comparison => exact abreast_input h _
  | key press => exact abreast_key h press
  | choose slot insert =>
      exact abreast_takeTurn h (b.box.course_select b.surroundings b.keys slot insert).samePlace
  | highlight slot => exact h.box (b.box.resembles_highlight slot).samePlace
  | takeAnswer answer =>
      obtain ⟨bs, hbox, -⟩ := b.box.takeAnswer_eq b.config answer
      exact h.box ⟨hbox.first, hbox.allowFreeText⟩
  | focus => exact abreast_focus h
  | blur => exact abreast_blur h
  | add m => exact abreast_rowChanged _
  | update m => exact abreast_update h m
  | delete key => exact abreast_remove h key true
  | deleteLast => exact abreast_deleteLast h
  | deleteAll => exact abreast_rowChanged _
  | insertBefore m anchor =>
      unfold perform
      dsimp only
      split
      · rename_i hinsert
        exact abreast_insertBefore hinsert
      · exact h
  | swap key other => exact abreast_swap h key other
  | moveActive forward => exact abreast_moveActive h forward
  | select place => exact abreast_select h place
  | selectPrevious => exact abreast_openAt h _
  | selectNext => exact abreast_openAt h _
  | editPrevious => exact abreast_editPrevious h
  | editNext => exact abreast_editNext h
  | toFirst => exact abreast_toFirst h
  | toEnd => exact abreast_toEnd h
  | sync row => exact abreast_sync h row
  | complete => exact abreast_complete h
  | drop target type data => exact abreast_drop h target type data

/-- **A bar is always abreast of its row.** -/
theorem abreast_reachable (h : Reachable b) : b.Abreast := by
  induction h with
  | new config owner => exact ⟨rfl, rfl, rfl⟩
  | equip _ hequips ih =>
      cases hequips with
      | matchers row => exact abreast_flagged _
      | keys keys => exact ih.congr rfl rfl rfl rfl rfl (EditBox.SamePlace.refl _)
      | validator check => exact ih.congr rfl rfl rfl rfl rfl (EditBox.SamePlace.refl _)
  | step _ operation ih => exact abreast_perform ih operation

/-! ### The active place is in the row -/

/-- There is a matcher at the active place. -/
def Placed (b : Bar) : Prop := ∀ i, b.active = some i → i < b.matchers.length

theorem Closed.placed (h : b.Closed) : b.Placed := by
  intro i hi
  rw [h.active] at hi
  contradiction

/-- No change takes the matcher at the active place away and leaves the place as it is. -/
theorem Effect.placed (h : Effect b operation b' e) (hplaced : b.Placed) : b'.Placed := by
  have hrow := h.row
  have hopened := h.opened
  cases e with
  | close => exact Closed.placed hopened
  | clear => exact Closed.placed hopened
  | replace i m => exact hopened.2.placed
  | stay =>
      intro i hi
      rw [hopened.active] at hi
      rw [hrow]
      exact hplaced i hi
  | opened place =>
      intro i hi
      obtain ⟨m, hm, hactive, -⟩ := hopened
      obtain rfl := Option.some.inj (hactive.symm.trans hi)
      rw [hrow]
      exact (List.getElem?_eq_some_iff.mp hm).1
  | join m =>
      intro i hi
      rw [hopened.active] at hi
      have hbefore := hplaced i hi
      rw [hrow, RowChange.apply, List.length_append]
      omega
  | put place m =>
      intro i hi
      obtain ⟨hplace, hactive, -⟩ := hopened
      rw [hactive] at hi
      obtain ⟨a, ha, rfl⟩ := Option.map_eq_some_iff.mp hi
      have hbefore := hplaced a ha
      have hlength : b'.matchers.length = b.matchers.length + 1 := by
        rw [hrow]
        simp only [RowChange.apply, List.length_append, List.length_take, List.length_cons,
          List.length_drop]
        omega
      split <;> omega
  | remove key =>
      rcases hopened with hclosed | ⟨hkept, hlast⟩
      · exact hclosed.placed
      · intro i hi
        rw [hkept.active] at hi
        exact (hlast i hi).1
  | exchange place other =>
      intro i hi
      obtain ⟨hplace, hother, hactive, -⟩ := hopened
      rw [hactive] at hi
      obtain ⟨a, ha, rfl⟩ := Option.map_eq_some_iff.mp hi
      have hbefore := hplaced a ha
      have hlength : b'.matchers.length = b.matchers.length := by
        rw [hrow]
        exact (RowChange.perm_exchange ..).length_eq
      split
      · omega
      · split <;> omega
  | take row =>
      rcases hopened with hclosed | ⟨hkept, hplace⟩
      · exact hclosed.placed
      · intro i hi
        rw [hkept.active] at hi
        rw [hrow]
        exact hplace i hi

/-- A bar in use, which has been set up before.  Others may draw keys from the same supply at any
time. -/
inductive Used : Bar → Prop
  | built {b : Bar} (h : Built b) : Used b
  | drawn {b : Bar} (h : Used b) : Used (b.withKeys b.keys.advance)
  | step {b : Bar} (h : Used b) (operation : Operation) : Used (b.perform operation).1

theorem Used.run (h : Used b) (history : List Operation) : Used (b.run history) := by
  induction history generalizing b with
  | nil => exact h
  | cons operation rest ih => exact ih (h.step operation)

theorem Built.reachable (h : Built b) : Reachable b := by
  induction h with
  | new config owner => exact .new config owner
  | equip _ hequips ih => exact .equip ih hequips

theorem Used.reachable (h : Used b) : Reachable b := by
  induction h with
  | built h => exact h.reachable
  | drawn _ ih => exact ih.equip (.keys _)
  | step _ operation ih => exact ih.step operation

/-- **The active place is in the row** as long as no other row to start from is given to the bar. -/
theorem placed_used (h : Used b) : b.Placed := by
  induction h with
  | built h => exact h.closed.placed
  | drawn _ ih => exact ih
  | step _ operation ih =>
      obtain ⟨e, heffect⟩ := exists_effect _ operation
      exact heffect.placed ih

/-- **What is kept beside the row never drifts from it**, whatever is done to a bar: the active
place is in the row, the flagged brackets are those of the row that have no partner, and the open
box knows whether it stands at the start of the row or of a group, whether functions are offered
and whether free text is allowed. -/
theorem derived_never_drifts (h : Used b) :
    (∀ i, b.active = some i → i < b.matchers.length) ∧
      b.unbalanced = Row.unbalanced (b.matchers.map (·.comparison)) ∧
      b.box.first = (match b.active with
        | none => b.matchers.isEmpty
        | some i => b.isFirst i) ∧
      b.box.allowFunctions = (b.active.isNone && b.matchers.isEmpty && b.function.isNone) ∧
      b.box.allowFreeText = b.config.allowsFreeText b.function := by
  have habreast := abreast_reachable h.reachable
  refine ⟨placed_used h, habreast.unbalanced, habreast.first, ?_, habreast.freeText⟩
  rw [(inOrder_reachable h.reachable).offers, Bool.and_assoc]
  rfl

/-- A bracket is put in before the open matcher, and the echo of that is not taken. -/
theorem derived_never_drifts_twoColours :
    let b := twoColours.run [.select 1, .input "(", .sync []]
    b.Used ∧ b.active = some 2 ∧ b.matchers.length = 3 ∧ b.unbalanced = [1] ∧
      b.box.first = true := by
  intro b
  have hused : b.Used := (Used.built (.equip (.new ..) (.matchers _))).run _
  obtain ⟨-, hunbalanced, hfirst, -, -⟩ := derived_never_drifts hused
  have hactive : b.active = some 2 := by decide
  have hstarts : b.isFirst 2 = true := by decide
  refine ⟨hused, hactive, by decide, hunbalanced.trans (by decide), ?_⟩
  rw [hfirst, hactive]
  exact hstarts

end Bar

end QueryBar
