/-
What a bar keeps in order whatever is done to it.

The open box offers functions exactly if the trailing box is open and there is neither a matcher
nor a function, and there is a text in it as long as something is searched for (`InOrder`).  The
first of the two holds after each change of the row or the function, whatever was before,
because the box is then told its place; a box that is opened is told when it is opened.

`Carries` says this of an operation, and also which function is active afterwards.  The function
changes in three ways only: a notice of the open box sets or drops it, and it goes when there is
no row left to go.  The owner's own objection never changes.
-/
import QueryBar.Proofs.Bar.Selection

namespace QueryBar

/-- The function that is active once a notice has been acted on. -/
def Notice.functionAfter (f : Option QueryFunction) : Notice → Option QueryFunction
  | .setFunction g => some g
  | .deleteFunction => none
  | _ => f

namespace Bar

/-- What the open box has been told of functions is right, and what is searched for has a text. -/
structure InOrder (b : Bar) : Prop where
  offers : b.box.allowFunctions = (b.active.isNone && b.offersFunctions)
  legible : b.box.Legible

/-- A bar that is in order stays so, and `f` is the function afterwards. -/
structure Carries (b : Bar) (f : Option QueryFunction) (b' : Bar) : Prop where
  function : b'.function = f
  validator : b'.validator = b.validator
  inOrder : b.InOrder → b'.InOrder

variable {b b' b'' : Bar} {f g : Option QueryFunction}

theorem Carries.refl (b : Bar) : b.Carries b.function b := ⟨rfl, rfl, id⟩

theorem Carries.trans (h : b.Carries f b') (h' : b'.Carries g b'') : b.Carries g b'' :=
  ⟨h'.function, h'.validator.trans h.validator, h'.inOrder ∘ h.inOrder⟩

/-- Another box is open, or the same one in another state. -/
theorem carries_of_box {e : EditBox} (hfunctions : e.allowFunctions = b.box.allowFunctions)
    (hlegible : b.box.Legible → e.Legible) : b.Carries b.function { b with box := e } :=
  ⟨rfl, rfl, fun h => ⟨hfunctions.trans h.offers, hlegible h.legible⟩⟩

/-! ### Keeping in step with the row -/

theorem legible_placeBox (h : b.box.Legible) : b.placeBox.box.Legible := by
  unfold placeBox
  split <;> exact h

/-- A box that is told its place is told what there is to know of functions. -/
theorem offers_placeBox (b : Bar) :
    b.placeBox.box.allowFunctions = (b.placeBox.active.isNone && b.placeBox.offersFunctions) := by
  have hoffers : b.placeBox.offersFunctions = b.offersFunctions := rfl
  have hactive : b.placeBox.active = b.active := rfl
  rw [hoffers, hactive]
  unfold placeBox
  cases b.active <;> rfl

theorem inOrder_placeBox (h : b.box.Legible) : b.placeBox.InOrder :=
  ⟨offers_placeBox b, legible_placeBox h⟩

/-- After a change of the row the bar is in order. -/
theorem carries_rowChanged (hfunction : b'.function = f) (hvalidator : b'.validator = b.validator)
    (hlegible : b.box.Legible → b'.box.Legible) : b.Carries f b'.rowChanged := by
  refine ⟨hfunction, hvalidator, fun h => ?_⟩
  have hplaced : b'.flagBrackets.placeBox.InOrder := inOrder_placeBox (hlegible h.legible)
  exact ⟨hplaced.offers, hplaced.legible⟩

theorem carries_useFunction (b : Bar) (f : Option QueryFunction) : b.Carries f (b.useFunction f) :=
  ⟨rfl, rfl, fun h => inOrder_placeBox (b := { b with function := f }) h.legible⟩

/-! ### Opening boxes -/

theorem carries_openAt (b : Bar) (place : Option Nat) :
    b.Carries b.function (b.openAt place) := by
  unfold openAt
  dsimp only
  generalize (place.bind fun i => b.matchers[i]?.map fun m => (i, m)) = target
  split
  · exact Carries.refl b
  · refine ⟨rfl, rfl, fun _ => ?_⟩
    cases target <;> exact ⟨rfl, EditBox.legible_of_unsearched rfl⟩

theorem legible_openTrailing (h : b.box.Legible) : b.openTrailing.box.Legible := by
  unfold openTrailing openAt
  dsimp only
  split
  · exact h
  · exact EditBox.legible_of_unsearched rfl

/-- The row is changed and the edit closed. -/
theorem carries_closing (hfunction : b'.function = f) (hvalidator : b'.validator = b.validator)
    (hbox : b'.box = b.box) : b.Carries f b'.openTrailing.rowChanged := by
  have hclosed := carries_openAt b' none
  exact carries_rowChanged (hclosed.function.trans hfunction) (hclosed.validator.trans hvalidator)
    fun h => legible_openTrailing (by rw [hbox]; exact h)

theorem carries_takeFocus (b : Bar) : b.Carries b.function b.takeFocus := by
  unfold takeFocus
  split
  · exact Carries.refl b
  · have hclosed := carries_openAt b none
    exact ⟨hclosed.function, hclosed.validator, fun h =>
      ⟨(hclosed.inOrder h).offers, (hclosed.inOrder h).legible⟩⟩

theorem carries_resetBox (b : Bar) : b.Carries b.function { b with box := b.box.reset } :=
  carries_of_box rfl fun _ => EditBox.legible_of_unsearched rfl

theorem carries_blur (b : Bar) : b.Carries b.function b.blur := by
  have hfocus : b.Carries b.function { b with hasFocus := false } :=
    ⟨rfl, rfl, fun h => ⟨h.offers, h.legible⟩⟩
  have hclosed := hfocus.trans (carries_openAt _ none)
  have hreset := hclosed.trans (carries_resetBox _)
  exact ⟨hreset.function.trans hclosed.function, hreset.validator, hreset.inOrder⟩

/-! ### Changes of the row -/

theorem carries_add (b : Bar) (m : Matcher) : b.Carries b.function (b.add m) :=
  carries_rowChanged rfl rfl id

theorem carries_update (b : Bar) (m : Matcher) : b.Carries b.function (b.update m).1 := by
  unfold update
  split
  · exact Carries.refl b
  · exact carries_closing rfl rfl rfl

theorem carries_remove (b : Bar) (key : String) (closeEdit : Bool) :
    b.Carries b.function (b.remove key closeEdit).1 := by
  unfold remove
  dsimp only
  split
  · exact Carries.refl b
  · split
    · exact carries_closing rfl rfl rfl
    · exact carries_rowChanged rfl rfl id

/-- The function goes with the last matcher, or rather after it. -/
theorem carries_deleteLast (b : Bar) :
    b.Carries (if b.matchers.isEmpty then none else b.function) b.deleteLast := by
  unfold deleteLast
  cases hlast : b.matchers.getLast? with
  | some m =>
      have hsome : b.matchers.isEmpty = false := by
        refine Bool.eq_false_iff.mpr fun hempty => ?_
        rw [List.isEmpty_iff.mp hempty] at hlast
        contradiction
      rw [hsome]
      exact carries_remove ..
  | none =>
      have hempty : b.matchers.isEmpty = true :=
        List.isEmpty_iff.mpr (List.getLast?_eq_none_iff.mp hlast)
      rw [if_pos hempty]
      dsimp only
      split
      · exact carries_useFunction b none
      · rename_i hnone
        rw [Bool.not_eq_true, Option.isSome_eq_false_iff, Option.isNone_iff_eq_none] at hnone
        exact ⟨hnone, rfl, id⟩

theorem carries_deleteAll (b : Bar) : b.Carries none b.deleteAll := carries_closing rfl rfl rfl

theorem carries_insertBefore {m : Matcher} {anchor : Option String}
    (h : b.insertBefore m anchor = .ok b') : b.Carries b.function b' := by
  unfold insertBefore at h
  split at h
  · obtain rfl := Except.ok.inj h
    exact carries_add b m
  · split at h
    · simp at h
    · obtain rfl := Except.ok.inj h
      exact carries_rowChanged rfl rfl id

theorem carries_swap (b : Bar) (key other : String) :
    b.Carries b.function (b.swap key other).1 := by
  unfold swap
  split
  · exact carries_rowChanged rfl rfl id
  · exact Carries.refl b

theorem carries_moveActive (b : Bar) (forward : Bool) :
    b.Carries b.function (b.moveActive forward).1 := by
  rcases b.moveActive_eq_or forward with hstays | ⟨_, _, hswap⟩
  · rw [hstays]
    exact Carries.refl b
  · rw [hswap]
    exact carries_swap ..

theorem carries_drop (b : Bar) (target type data : String) :
    b.Carries b.function (b.drop target type data).1 := by
  rcases b.drop_eq_or target type data with hstays | ⟨_, _, hswap⟩
  · rw [hstays]
    exact Carries.refl b
  · rw [hswap]
    exact carries_swap ..

theorem carries_sync (b : Bar) (row : List Matcher) : b.Carries b.function (b.sync row) := by
  have hflagged : ∀ {b' : Bar}, b'.validator = b.validator → b'.function = b.function →
      (b.box.Legible → b'.box.Legible) → b.Carries b.function b'.flagBrackets.placeBox :=
    fun hvalidator hfunction hlegible =>
      ⟨hfunction, hvalidator, fun h => inOrder_placeBox (hlegible h.legible)⟩
  unfold sync
  split
  · exact ⟨rfl, rfl, fun h => ⟨h.offers, h.legible⟩⟩
  · dsimp only
    split
    · have hclosed := carries_openAt { b with matchers := row } none
      exact hflagged hclosed.validator hclosed.function fun h => legible_openTrailing h
    · exact hflagged rfl rfl id

theorem complete_of_refusal {r : Refusal}
    (h : (b.function.bind fun f => Row.refusal? f b.matchers) = some r) :
    b.complete = (b, .error r) := by
  unfold complete
  rw [h]

/-- With the row that is handed out the search of the box ends, whichever box is open. -/
theorem closes_complete (h : (b.function.bind fun f => Row.refusal? f b.matchers) = none) :
    b.box.Closes b.complete.1.box := by
  unfold complete
  rw [h]
  dsimp only
  generalize hleft : ({ b with matchers := [], function := none, hasFocus := false } : Bar) = left
  have hbox : left.box = b.box := by rw [← hleft]
  have hopened := (follows_openTrailing left).box
  rw [hbox] at hopened
  have hreset := hopened.trans_closes (EditBox.closes_reset left.openTrailing.box)
  have hplaced := follows_rowChanged { left.openTrailing with box := left.openTrailing.box.reset }
  exact hreset.trans_follows hplaced.box

/-- The function is handed out with the row, and then the box is emptied as well. -/
theorem carries_complete (b : Bar) : b.Carries b.function b.complete.1 ∨
    b.Carries none b.complete.1 ∧ b.box.Closes b.complete.1.box := by
  cases hrefusal : b.function.bind fun f => Row.refusal? f b.matchers with
  | some r =>
      rw [complete_of_refusal hrefusal]
      exact Or.inl (Carries.refl b)
  | none =>
      refine Or.inr ⟨?_, closes_complete hrefusal⟩
      unfold complete
      rw [hrefusal]
      have hclosed :=
        carries_openAt { b with matchers := [], function := none, hasFocus := false } none
      exact carries_rowChanged hclosed.function hclosed.validator
        fun _ => EditBox.legible_of_unsearched rfl

/-! ### Selections -/

theorem carries_select (b : Bar) (place : Nat) : b.Carries b.function (b.select place) := by
  have hfocus : b.Carries b.function { b with hasFocus := true } :=
    ⟨rfl, rfl, fun h => ⟨h.offers, h.legible⟩⟩
  exact hfocus.trans (carries_openAt _ _)

theorem carries_editPrevious (b : Bar) : b.Carries b.function b.editPrevious := by
  unfold editPrevious
  split
  · exact carries_openAt ..
  · exact Carries.refl b

theorem carries_editNext (b : Bar) : b.Carries b.function b.editNext := by
  unfold editNext
  split
  · exact carries_openAt ..
  · exact Carries.refl b

theorem carries_toFirst (b : Bar) : b.Carries b.function b.toFirst.1 := by
  unfold toFirst
  split
  · exact Carries.refl b
  · exact carries_openAt ..

theorem carries_toEnd (b : Bar) : b.Carries b.function b.toEnd.1 := by
  unfold toEnd
  split
  · exact Carries.refl b
  · exact carries_openAt ..

/-! ### Acting for the box -/

theorem carries_heed (edited : Option String) (b : Bar) (n : Notice) :
    b.Carries (n.functionAfter b.function) (heed edited b n) := by
  cases n with
  | changed m =>
      cases m with
      | some m =>
          simp only [heed]
          split
          · exact carries_update ..
          · exact carries_add ..
      | none =>
          simp only [heed]
          split
          · exact carries_remove ..
          · exact Carries.refl b
  | consulted m inserting => exact Carries.refl b
  | insert m =>
      show b.Carries b.function ((b.insertBefore m edited).toOption.getD b)
      cases h : b.insertBefore m edited with
      | ok b' => exact carries_insertBefore h
      | error _ => exact Carries.refl b
  | editPrevious deleting =>
      simp only [heed]
      split
      · exact carries_remove ..
      · exact carries_editPrevious b
  | editNext => exact carries_editNext b
  | focus =>
      simp only [heed]
      split
      · exact carries_takeFocus b
      · exact Carries.refl b
  | cancel => exact carries_openAt ..
  | changing =>
      simp only [heed]
      split
      · exact ⟨rfl, rfl, fun h => ⟨h.offers, h.legible⟩⟩
      · exact Carries.refl b
  | setFunction f => exact carries_useFunction ..
  | deleteFunction => exact carries_useFunction ..

theorem carries_foldl_heed (edited : Option String) (notices : List Notice) (b : Bar) :
    b.Carries (notices.foldl Notice.functionAfter b.function) (notices.foldl (heed edited) b) := by
  induction notices generalizing b with
  | nil => exact Carries.refl b
  | cons n rest ih =>
      have hfirst := carries_heed edited b n
      have hrest := ih (heed edited b n)
      rw [hfirst.function] at hrest
      exact hfirst.trans hrest

/-- Most notices are not about the function. -/
theorem foldl_functionAfter {notices : List Notice} (h : ∀ n ∈ notices, n.functionAfter f = f) :
    notices.foldl Notice.functionAfter f = f := by
  induction notices with
  | nil => rfl
  | cons n rest ih =>
      rw [List.foldl_cons, h n List.mem_cons_self]
      exact ih fun n hn => h n (List.mem_cons_of_mem _ hn)

/-- Whatever a turn wants of the bar, the bar stays in order if the box has not been told otherwise
about functions. -/
theorem carries_takeTurn {α : Type} (turn : Turn α)
    (hfunctions : turn.box.allowFunctions = b.box.allowFunctions)
    (hlegible : b.box.Legible → turn.box.Legible) :
    b.Carries (turn.notices.foldl Notice.functionAfter b.function) (b.takeTurn turn).1 := by
  have hturn : b.Carries b.function { b with box := turn.box, keys := turn.keys } :=
    ⟨rfl, rfl, fun h => ⟨hfunctions.trans h.offers, hlegible h.legible⟩⟩
  exact hturn.trans (carries_foldl_heed _ turn.notices _)

/-! ### All operations -/

/-- The function goes while the open box stays as it is. -/
inductive Drops (b : Bar) : Operation → Prop
  /-- There is no matcher to be removed before it. -/
  | last (hempty : b.matchers = []) : Drops b .deleteLast
  /-- There is no edit that would be closed. -/
  | all (hclosed : b.Closed) : Drops b .deleteAll
  | lastByKey (p : KeyPress) (hkey : p.key = .backspace) (hshift : p.shift = true)
      (hempty : b.matchers = []) : Drops b (.key p)
  | allByKey (p : KeyPress) (hkey : p.key = .backspace) (hshift : p.shift = false)
      (hctrl : p.ctrl = true) (hclosed : b.Closed) : Drops b (.key p)

/-- What is known of the function after an operation: it is the same, unless the search of the box
has been ended, or there was no text to search for, or it has been dropped. -/
def Accounts (b : Bar) (operation : Operation) (b' : Bar) (f : Option QueryFunction) : Prop :=
  f = b.function ∨ b.box.Closes b'.box ∨ b.box.text.isEmpty = true ∨
    b.Drops operation ∧ f = none

variable {operation : Operation}

theorem openTrailing_of_closed (h : b.Closed) : b.openTrailing = b := by
  unfold openTrailing openAt
  dsimp only
  rw [h.active, h.held]
  exact if_pos ⟨rfl, rfl⟩

/-- An edit that is closed takes its search along. -/
theorem closes_openTrailing (h : ¬ b.Closed) : b.box.Closes b.openTrailing.box := by
  unfold openTrailing openAt
  dsimp only [Option.bind_none, Option.map_none]
  split
  · rename_i hsame
    exact absurd ⟨hsame.1.symm, Option.map_eq_none_iff.mp hsame.2.symm⟩ h
  · exact EditBox.closes_trailing b.box ..

theorem closes_deleteAll (h : ¬ b.Closed) : b.box.Closes b.deleteAll.box := by
  have hopen : ¬ Closed { b with matchers := [], function := none } :=
    fun hclosed => h ⟨hclosed.active, hclosed.held⟩
  exact (closes_openTrailing hopen).trans_follows (follows_rowChanged _).box

theorem accounts_deleteAll (hdrops : b.Closed → b.Drops operation) :
    b.Accounts operation b.deleteAll none := by
  by_cases h : b.Closed
  · exact Or.inr (Or.inr (Or.inr ⟨hdrops h, rfl⟩))
  · exact Or.inr (Or.inl (closes_deleteAll h))

theorem accounts_deleteLast (hdrops : b.matchers = [] → b.Drops operation) :
    b.Accounts operation b.deleteLast (if b.matchers.isEmpty then none else b.function) := by
  split
  · rename_i hempty
    exact Or.inr (Or.inr (Or.inr ⟨hdrops (List.isEmpty_iff.mp hempty), rfl⟩))
  · exact Or.inl rfl

/-- What the bar does with a key of its own.  It never sets a function. -/
theorem carries_command (b : Bar) (p : KeyPress) :
    ∃ f, b.Carries f (b.command p).1 ∧ b.Accounts (.key p) (b.command p).1 f ∧
      (f = b.function ∨ f = none) := by
  have hplain : ∀ {b'}, b.Carries b.function b' →
      ∃ f, b.Carries f b' ∧ b.Accounts (.key p) b' f ∧ (f = b.function ∨ f = none) :=
    fun h => ⟨_, h, Or.inl rfl, Or.inl rfl⟩
  unfold command
  cases hkey : p.key with
  | arrowLeft =>
      dsimp only
      split
      · exact hplain (carries_openAt ..)
      · split
        · exact hplain (carries_moveActive b false)
        · exact hplain (Carries.refl b)
  | arrowRight =>
      dsimp only
      split
      · exact hplain (carries_openAt ..)
      · split
        · exact hplain (carries_moveActive b true)
        · exact hplain (Carries.refl b)
  | backspace =>
      dsimp only
      split
      · rename_i hshift
        refine ⟨_, carries_deleteLast b, accounts_deleteLast (.lastByKey p hkey hshift), ?_⟩
        split
        · exact Or.inr rfl
        · exact Or.inl rfl
      · rename_i hshift
        rw [Bool.not_eq_true] at hshift
        split
        · rename_i hctrl
          exact ⟨_, carries_deleteAll b, accounts_deleteAll (.allByKey p hkey hshift hctrl),
            Or.inr rfl⟩
        · exact hplain (Carries.refl b)
  | enter =>
      have hcomplete := carries_complete b
      dsimp only
      split <;> rename_i h <;> rw [h] at hcomplete <;>
        exact hcomplete.elim hplain fun ⟨hcarries, hcloses⟩ =>
          ⟨none, hcarries, Or.inr (Or.inl hcloses), Or.inr rfl⟩
  | home => exact hplain (carries_toFirst b)
  | finish => exact hplain (carries_toEnd b)
  | arrowUp => exact hplain (Carries.refl b)
  | arrowDown => exact hplain (Carries.refl b)
  | pageUp => exact hplain (Carries.refl b)
  | pageDown => exact hplain (Carries.refl b)
  | tab => exact hplain (Carries.refl b)
  | escape => exact hplain (Carries.refl b)

/-- A turn sets a function only when it empties the box, and drops it only where nothing has been
typed. -/
theorem carries_course {turn : Turn Reaction} {asked : Bool}
    (h : b.box.Course b.surroundings b.keys asked turn) :
    ∃ f, b.Carries f (b.takeTurn turn).1 ∧ b.Accounts operation (b.takeTurn turn).1 f := by
  refine ⟨_, carries_takeTurn turn h.allowFunctions h.legible, ?_⟩
  have hturned := (follows_takeTurn b turn).box
  cases h with
  | @turned _ n _ _ hn _ =>
      cases n with
      | deleteFunction => exact Or.inr (Or.inr (Or.inl hn))
      | setFunction f => exact hn.elim
      | _ => exact Or.inl rfl
  | function hbox _ _ _ =>
      have hreset := (EditBox.closes_reset b.box).trans_follows (Or.inl hbox.toKeeps)
      exact Or.inr (Or.inl (hreset.trans_follows hturned))
  | _ => exact Or.inl rfl

theorem carries_key (b : Bar) (p : KeyPress) :
    ∃ f, b.Carries f (b.key p).1 ∧ b.Accounts (.key p) (b.key p).1 f := by
  rcases b.key_cases p with ⟨-, hkey⟩ | ⟨hbox, -, hkey⟩
  · rw [hkey]
    exact carries_course (b.box.course_key b.surroundings b.keys p)
  · rw [hkey]
    generalize (b.box.key b.surroundings b.keys p).box = left at hbox
    obtain ⟨f, hcommand, haccounts, -⟩ := carries_command { b with box := left } p
    refine ⟨f, (carries_of_box hbox.allowFunctions hbox.legible).trans hcommand, ?_⟩
    rcases haccounts with hsame | hcloses | hempty | ⟨hdrops, hnone⟩
    · exact Or.inl hsame
    · have hkept : b.box.Follows left := Or.inl hbox.toKeeps
      exact Or.inr (Or.inl (hkept.trans_closes hcloses))
    · exact Or.inr (Or.inr (Or.inl (hbox.text ▸ hempty)))
    · refine Or.inr (Or.inr (Or.inr ⟨?_, hnone⟩))
      cases hdrops with
      | lastByKey _ hkey hshift hempty => exact .lastByKey p hkey hshift hempty
      | allByKey _ hkey hshift hctrl hclosed =>
          exact .allByKey p hkey hshift hctrl
            ⟨hclosed.active, hbox.matcher.symm.trans hclosed.held⟩

/-- A text makes no difference to the function, whatever becomes of it. -/
theorem carries_input (b : Bar) (text : String) : b.Carries b.function (b.input text).1 := by
  cases hbracket : (Tokens.ofText b.config b.function text).bracket with
  | none =>
      obtain ⟨hbox, hlegible, hnotices⟩ :=
        EditBox.typeText_of_no_bracket b.box b.surroundings b.keys hbracket
      have hturn := carries_takeTurn _ hbox.allowFunctions fun _ => hlegible
      rw [foldl_functionAfter fun n hn => by rw [hnotices n hn]; rfl] at hturn
      exact hturn
  | some bracket =>
      obtain ⟨typed, asides, hbox, hlegible, hasides, htaken, -, hnotices⟩ :=
        EditBox.typeText_of_bracket b.box b.surroundings b.keys hbracket
      have hcourse := typed.course_takeBracket b.surroundings b.keys bracket
      have hturn : b.Carries _ (b.input text).1 :=
        carries_takeTurn (b.box.typeText b.surroundings b.keys text)
          (by rw [htaken, hcourse.allowFunctions, hbox.allowFunctions])
          (fun _ => by rw [htaken]; exact hcourse.legible hlegible)
      rw [hnotices, foldl_functionAfter ?_] at hturn
      · exact hturn
      · intro n hn
        rcases List.mem_append.mp hn with haside | htold
        · rw [hasides n haside]
          rfl
        · rcases EditBox.of_mem_notices_takeBracket _ _ _ htold with
            ⟨-, m, rfl⟩ | ⟨m, rfl | rfl⟩ <;> rfl

theorem carries_focus (b : Bar) : b.Carries b.function b.focus :=
  carries_takeTurn (b.box.focus b.keys) rfl id

theorem carries_takeAnswer (b : Bar) (a : LookupAnswer) :
    b.Carries b.function (b.takeAnswer a).1 := by
  obtain ⟨bs, hbox, -⟩ := b.box.takeAnswer_eq b.config a
  exact carries_of_box hbox.allowFunctions fun h => hbox.legible h

/-- **Every operation keeps the bar in order**, and the function is accounted for. -/
theorem carries_perform (b : Bar) (operation : Operation) :
    ∃ f, b.Carries f (b.perform operation).1 ∧
      b.Accounts operation (b.perform operation).1 f := by
  have hplain : ∀ {b'}, b.Carries b.function b' →
      ∃ f, b.Carries f b' ∧ b.Accounts operation b' f := fun h => ⟨_, h, Or.inl rfl⟩
  cases operation with
  | input text => exact hplain (carries_input b text)
  | compose operator comparison => exact hplain (carries_input b _)
  | key press => exact carries_key b press
  | choose slot insert =>
      exact carries_course (b.box.course_select b.surroundings b.keys slot insert)
  | highlight slot =>
      have hbox := b.box.resembles_highlight slot
      exact hplain (carries_of_box hbox.allowFunctions hbox.legible)
  | takeAnswer answer => exact hplain (carries_takeAnswer b answer)
  | focus => exact hplain (carries_focus b)
  | blur => exact hplain (carries_blur b)
  | add m => exact hplain (carries_add b m)
  | update m => exact hplain (carries_update b m)
  | delete key => exact hplain (carries_remove b key true)
  | deleteLast => exact ⟨_, carries_deleteLast b, accounts_deleteLast .last⟩
  | deleteAll => exact ⟨_, carries_deleteAll b, accounts_deleteAll .all⟩
  | insertBefore m anchor =>
      unfold perform
      dsimp only
      split
      · rename_i hinsert
        exact hplain (carries_insertBefore hinsert)
      · exact hplain (Carries.refl b)
  | swap key other => exact hplain (carries_swap b key other)
  | moveActive forward => exact hplain (carries_moveActive b forward)
  | select place => exact hplain (carries_select b place)
  | selectPrevious => exact hplain (carries_openAt ..)
  | selectNext => exact hplain (carries_openAt ..)
  | editPrevious => exact hplain (carries_editPrevious b)
  | editNext => exact hplain (carries_editNext b)
  | toFirst => exact hplain (carries_toFirst b)
  | toEnd => exact hplain (carries_toEnd b)
  | sync row => exact hplain (carries_sync b row)
  | complete =>
      exact (carries_complete b).elim hplain fun ⟨hcarries, hcloses⟩ =>
        ⟨none, hcarries, Or.inr (Or.inl hcloses)⟩
  | drop target type data => exact hplain (carries_drop b target type data)

theorem inOrder_equips (hb : b.InOrder) (h : Watch.Equips b b') : b'.InOrder := by
  cases h with
  | matchers row =>
      have hflagged : (flagBrackets { b with matchers := row }).box.Legible := hb.legible
      exact inOrder_placeBox hflagged
  | keys keys => exact ⟨hb.offers, hb.legible⟩
  | validator check => exact ⟨hb.offers, hb.legible⟩

/-- **A bar is always in order.** -/
theorem inOrder_reachable (h : Reachable b) : b.InOrder := by
  induction h with
  | new config owner => exact ⟨rfl, EditBox.legible_of_unsearched rfl⟩
  | equip _ hequips ih => exact inOrder_equips ih hequips
  | step _ operation ih =>
      obtain ⟨f, hcarries, -⟩ := carries_perform _ operation
      exact hcarries.inOrder ih

/-- The owner's own objection is never lost. -/
theorem validator_run (b : Bar) (history : List Operation) :
    (b.run history).validator = b.validator := by
  induction history generalizing b with
  | nil => rfl
  | cons operation rest ih =>
      obtain ⟨f, hcarries, -⟩ := carries_perform b operation
      exact (ih _).trans hcarries.validator

/-! ### Dropping the function -/

theorem keeps_deleteLast (h : b.matchers = []) :
    b.deleteLast.function = none ∧ b.box.Keeps b.deleteLast.box := by
  have hfunction := (carries_deleteLast b).function
  rw [h] at hfunction
  refine ⟨hfunction, ?_⟩
  unfold deleteLast
  rw [h, List.getLast?_nil]
  dsimp only
  split
  · exact keeps_placeBox { b with function := none }
  · exact EditBox.Keeps.refl b.box

theorem keeps_deleteAll (h : b.Closed) :
    b.deleteAll.function = none ∧ b.box.Keeps b.deleteAll.box := by
  have hclosed : Closed { b with matchers := [], function := none } := ⟨h.active, h.held⟩
  refine ⟨(carries_deleteAll b).function, ?_⟩
  unfold deleteAll
  rw [openTrailing_of_closed hclosed]
  exact keeps_placeBox (flagBrackets { b with matchers := [], function := none })

/-- **A function that is dropped leaves the search as it is**, where there is a text. -/
theorem Drops.perform (h : b.Drops operation) (htext : b.box.text.isEmpty = false) :
    (b.perform operation).1.function = none ∧ b.box.Keeps (b.perform operation).1.box := by
  have hpassed : ∀ {p : KeyPress}, p.key = .backspace →
      ∃ left, b.box.Resembles left ∧ (b.key p).1 = ({ b with box := left }.command p).1 := by
    intro p hkey
    rcases b.key_cases p with ⟨hused, -⟩ | ⟨hbox, -, hcommand⟩
    · exact absurd (b.box.answer_key_backspace b.surroundings b.keys hkey htext) hused
    · exact ⟨_, hbox, hcommand⟩
  cases h with
  | last hempty => exact keeps_deleteLast hempty
  | all hclosed => exact keeps_deleteAll hclosed
  | lastByKey p hkey hshift hempty =>
      obtain ⟨left, hbox, hcommand⟩ := hpassed hkey
      have hdeleted := keeps_deleteLast (b := { b with box := left }) hempty
      have hperform : (b.perform (.key p)).1 = deleteLast { b with box := left } := by
        refine Eq.trans hcommand ?_
        unfold command
        rw [hkey]
        dsimp only
        rw [if_pos hshift]
      rw [hperform]
      exact ⟨hdeleted.1, hbox.toKeeps.trans hdeleted.2⟩
  | allByKey p hkey hshift hctrl hclosed =>
      obtain ⟨left, hbox, hcommand⟩ := hpassed hkey
      have hdeleted := keeps_deleteAll (b := { b with box := left })
        ⟨hclosed.active, hbox.matcher.trans hclosed.held⟩
      have hperform : (b.perform (.key p)).1 = deleteAll { b with box := left } := by
        refine Eq.trans hcommand ?_
        unfold command
        rw [hkey]
        dsimp only
        rw [if_neg (by rw [hshift]; exact Bool.false_ne_true), if_pos hctrl]
      rw [hperform]
      exact ⟨hdeleted.1, hbox.toKeeps.trans hdeleted.2⟩

end Bar

end QueryBar
