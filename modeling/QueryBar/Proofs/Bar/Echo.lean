/-
Rows from outside that are dropped.

The first time that the text of the open matcher is touched, the owner is told, and the next
row that comes from outside is taken for the echo of that and dropped.  Nothing but such a row
makes the bar stop waiting: an edit that is committed, left, blurred or handed out with the row
has been announced all the same.  So a row is taken exactly if no edit has been announced since
the last one came (`sync_takes_row_iff`), whether or not an edit is still under way.

Of all operations only those that type a text announce an edit, and only `sync` looks at what
has been announced, so that everything else is a matter of leaving it alone
(`echoDue_perform`).
-/
import QueryBar.Proofs.Bar.Selection

namespace QueryBar

/-- The text would be the first other one to stand in the box that edits a matcher. -/
def EditBox.announces (e : EditBox) (text : String) : Bool :=
  !e.touched && e.isEditing && text != e.text

namespace Bar

/-- The operation tells the owner that the open matcher is being edited. -/
def announces (b : Bar) : Operation → Bool
  | .input text => b.box.announces text
  | .compose operator comparison => b.box.announces (b.box.composedText operator comparison)
  | _ => false

/-- The bar can have been used in such a way that an edit has been announced and no row has come
from outside since. -/
inductive Awaiting : Bar → Prop
  | announced {b : Bar} (h : Reachable b) (operation : Operation)
      (hannounces : b.announces operation = true) : Awaiting (b.perform operation).1
  | equip {b b' : Bar} (h : Awaiting b) (hequips : Watch.Equips b b') : Awaiting b'
  | step {b : Bar} (h : Awaiting b) (operation : Operation)
      (hrow : ∀ row, operation ≠ .sync row) : Awaiting (b.perform operation).1

variable {b b' : Bar}

/-! ### What leaves announcements alone -/

theorem echoDue_openAt (b : Bar) (place : Option Nat) : (b.openAt place).echoDue = b.echoDue := by
  unfold openAt
  dsimp only
  split <;> rfl

theorem echoDue_openTrailing (b : Bar) : b.openTrailing.echoDue = b.echoDue := echoDue_openAt b none

theorem echoDue_rowChanged (b : Bar) : b.rowChanged.echoDue = b.echoDue := rfl

theorem echoDue_takeFocus (b : Bar) : b.takeFocus.echoDue = b.echoDue := by
  unfold takeFocus
  split
  · rfl
  · exact echoDue_openTrailing b

theorem echoDue_blur (b : Bar) : b.blur.echoDue = b.echoDue :=
  echoDue_openTrailing { b with hasFocus := false }

theorem echoDue_update (b : Bar) (m : Matcher) : (b.update m).1.echoDue = b.echoDue := by
  unfold update
  split
  · rfl
  · exact (echoDue_rowChanged _).trans (echoDue_openTrailing _)

theorem echoDue_remove (b : Bar) (key : String) (closeEdit : Bool) :
    (b.remove key closeEdit).1.echoDue = b.echoDue := by
  unfold remove
  dsimp only
  split
  · rfl
  · split
    · exact (echoDue_rowChanged _).trans (echoDue_openTrailing _)
    · rfl

theorem echoDue_deleteLast (b : Bar) : b.deleteLast.echoDue = b.echoDue := by
  unfold deleteLast
  split
  · exact echoDue_remove ..
  · split <;> rfl

theorem echoDue_deleteAll (b : Bar) : b.deleteAll.echoDue = b.echoDue :=
  (echoDue_rowChanged _).trans (echoDue_openTrailing _)

theorem echoDue_insertBefore {m : Matcher} {anchor : Option String}
    (h : b.insertBefore m anchor = .ok b') : b'.echoDue = b.echoDue := by
  unfold insertBefore at h
  split at h
  · obtain rfl := Except.ok.inj h
    rfl
  · split at h
    · contradiction
    · obtain rfl := Except.ok.inj h
      rfl

theorem echoDue_swap (b : Bar) (key other : String) : (b.swap key other).1.echoDue = b.echoDue := by
  unfold swap
  split <;> rfl

theorem echoDue_moveActive (b : Bar) (forward : Bool) :
    (b.moveActive forward).1.echoDue = b.echoDue := by
  rcases b.moveActive_eq_or forward with hstays | ⟨_, _, hswap⟩
  · rw [hstays]
  · rw [hswap]
    exact echoDue_swap ..

theorem echoDue_drop (b : Bar) (target type data : String) :
    (b.drop target type data).1.echoDue = b.echoDue := by
  rcases b.drop_eq_or target type data with hstays | ⟨_, _, hswap⟩
  · rw [hstays]
  · rw [hswap]
    exact echoDue_swap ..

theorem echoDue_complete (b : Bar) : b.complete.1.echoDue = b.echoDue := by
  unfold complete
  split
  · rfl
  · dsimp only
    rw [echoDue_rowChanged]
    exact echoDue_openTrailing { b with matchers := [], function := none, hasFocus := false }

theorem echoDue_editPrevious (b : Bar) : b.editPrevious.echoDue = b.echoDue := by
  unfold editPrevious
  split
  · exact echoDue_openAt ..
  · rfl

theorem echoDue_editNext (b : Bar) : b.editNext.echoDue = b.echoDue := by
  unfold editNext
  split
  · exact echoDue_openAt ..
  · rfl

theorem echoDue_toFirst (b : Bar) : b.toFirst.1.echoDue = b.echoDue := by
  unfold toFirst
  split
  · rfl
  · exact echoDue_openAt ..

theorem echoDue_toEnd (b : Bar) : b.toEnd.1.echoDue = b.echoDue := by
  unfold toEnd
  split
  · rfl
  · exact echoDue_openTrailing b

theorem echoDue_command (b : Bar) (p : KeyPress) : (b.command p).1.echoDue = b.echoDue := by
  unfold command
  cases p.key with
  | arrowLeft =>
      dsimp only
      split
      · exact echoDue_openAt ..
      · split
        · exact echoDue_moveActive b false
        · rfl
  | arrowRight =>
      dsimp only
      split
      · exact echoDue_openAt ..
      · split
        · exact echoDue_moveActive b true
        · rfl
  | backspace =>
      dsimp only
      split
      · exact echoDue_deleteLast b
      · split
        · exact echoDue_deleteAll b
        · rfl
  | enter =>
      have hcomplete := echoDue_complete b
      dsimp only
      split <;> rename_i h <;> rw [h] at hcomplete <;> exact hcomplete
  | home => exact echoDue_toFirst b
  | finish => exact echoDue_toEnd b
  | arrowUp | arrowDown | pageUp | pageDown | tab | escape => rfl

theorem echoDue_equips (h : Watch.Equips b b') : b'.echoDue = b.echoDue := by
  cases h <;> rfl

/-! ### Acting for the box -/

/-- No notice but one is heard as an announcement. -/
theorem echoDue_heed (edited : Option String) (b : Bar) {n : Notice} (hn : n ≠ .changing) :
    (heed edited b n).echoDue = b.echoDue := by
  cases n with
  | changed m =>
      cases m with
      | some m =>
          simp only [heed]
          split
          · exact echoDue_update ..
          · rfl
      | none =>
          simp only [heed]
          split
          · exact echoDue_remove ..
          · rfl
  | consulted m inserting => rfl
  | insert m =>
      show ((b.insertBefore m edited).toOption.getD b).echoDue = b.echoDue
      cases h : b.insertBefore m edited with
      | ok b' => exact echoDue_insertBefore h
      | error _ => rfl
  | editPrevious deleting =>
      simp only [heed]
      split
      · exact echoDue_remove ..
      · exact echoDue_editPrevious b
  | editNext => exact echoDue_editNext b
  | focus =>
      simp only [heed]
      split
      · exact echoDue_takeFocus b
      · rfl
  | cancel => exact echoDue_openTrailing b
  | changing => exact absurd rfl hn
  | setFunction f => rfl
  | deleteFunction => rfl

theorem echoDue_foldl_heed (edited : Option String) {notices : List Notice}
    (h : ∀ n ∈ notices, n ≠ .changing) (b : Bar) :
    (notices.foldl (heed edited) b).echoDue = b.echoDue := by
  induction notices generalizing b with
  | nil => rfl
  | cons n rest ih =>
      rw [List.foldl_cons, ih (fun n hn => h n (List.mem_cons_of_mem _ hn)),
        echoDue_heed edited b (h n List.mem_cons_self)]

theorem echoDue_takeTurn {α : Type} {turn : Turn α} (h : ∀ n ∈ turn.notices, n ≠ .changing)
    (b : Bar) : (b.takeTurn turn).1.echoDue = b.echoDue :=
  echoDue_foldl_heed _ h _

end Bar

/-! ### What announces an edit -/

/-- No key and no choice announces one. -/
theorem EditBox.Course.not_changing {e : EditBox} {around : Surroundings} {keys : KeySupply}
    {asked : Bool} {turn : Turn Reaction} (h : e.Course around keys asked turn) :
    ∀ n ∈ turn.notices, n ≠ .changing := by
  cases h with
  | turned _ hn _ =>
      intro n hmem
      obtain rfl := List.mem_singleton.mp hmem
      rintro rfl
      exact hn
  | _ => simp

/-- A text announces one before anything else, if at all.  What comes after that is what a box lets
its owner know in a turn of its own. -/
theorem EditBox.notices_typeText (e : EditBox) (around : Surroundings) (keys : KeySupply)
    (text : String) : ∃ (typed : EditBox) (asked : Bool) (turn : Turn Reaction),
      typed.Course around keys asked turn ∧ (e.typeText around keys text).notices
        = (if e.announces text then [Notice.changing] else []) ++ turn.notices := by
  have hquiet : e.Course around keys true ⟨e, keys, [], .ignored⟩ := .quiet (Resembles.refl e)
  unfold typeText
  dsimp only
  split
  · exact ⟨e, true, _, hquiet, (List.append_nil _).symm⟩
  · split
    · exact ⟨_, _, _, course_takeBracket _ around keys _, rfl⟩
    · exact ⟨e, true, _, hquiet, (List.append_nil _).symm⟩

namespace Bar

variable {b b' : Bar}

theorem echoDue_input (b : Bar) (text : String) :
    (b.input text).1.echoDue = (b.box.announces text || b.echoDue) := by
  obtain ⟨_, _, turn, hcourse, hnotices⟩ := b.box.notices_typeText b.surroundings b.keys text
  have hmatcher := (EditBox.orderly_typeText b.box b.surroundings b.keys text).matcher
  unfold input takeTurn
  dsimp only
  rw [hnotices, hmatcher, List.foldl_append, echoDue_foldl_heed _ hcourse.not_changing]
  cases hannounces : b.box.announces text with
  | false => rfl
  | true =>
      unfold EditBox.announces EditBox.isEditing at hannounces
      rw [Bool.and_eq_true, Bool.and_eq_true] at hannounces
      obtain ⟨m, hm⟩ := Option.isSome_iff_exists.mp hannounces.1.2
      rw [hm]
      rfl

theorem echoDue_key (b : Bar) (p : KeyPress) : (b.key p).1.echoDue = b.echoDue := by
  have hturn := echoDue_takeTurn (b.box.course_key b.surroundings b.keys p).not_changing b
  unfold key
  dsimp only
  split
  · exact (echoDue_command _ p).trans hturn
  · exact hturn

theorem echoDue_choose (b : Bar) (slot : Nat) (insert : Bool) :
    (b.choose slot insert).1.echoDue = b.echoDue :=
  echoDue_takeTurn (b.box.course_select b.surroundings b.keys slot insert).not_changing b

theorem echoDue_focus (b : Bar) : b.focus.echoDue = b.echoDue := by
  have hsilent : ∀ n ∈ (b.box.focus b.keys).notices, n ≠ .changing := by simp [EditBox.focus]
  exact echoDue_takeTurn hsilent b

/-- **An operation announces an edit or leaves what has been announced alone**, unless it brings
a row from outside. -/
theorem echoDue_perform (b : Bar) (operation : Operation) (hrow : ∀ row, operation ≠ .sync row) :
    (b.perform operation).1.echoDue = (b.announces operation || b.echoDue) := by
  cases operation with
  | input text => exact echoDue_input b text
  | compose operator comparison => exact echoDue_input b (b.box.composedText operator comparison)
  | key press => exact echoDue_key b press
  | choose slot insert => exact echoDue_choose b slot insert
  | highlight slot => rfl
  | takeAnswer answer => rfl
  | focus => exact echoDue_focus b
  | blur => exact echoDue_blur b
  | add m => rfl
  | update m => exact echoDue_update b m
  | delete key => exact echoDue_remove b key true
  | deleteLast => exact echoDue_deleteLast b
  | deleteAll => exact echoDue_deleteAll b
  | insertBefore m anchor =>
      simp only [perform]
      cases h : b.insertBefore m anchor with
      | ok b' => exact echoDue_insertBefore h
      | error e => rfl
  | swap key other => exact echoDue_swap b key other
  | moveActive forward => exact echoDue_moveActive b forward
  | select place => exact echoDue_openAt _ _
  | selectPrevious => exact echoDue_openAt _ _
  | selectNext => exact echoDue_openAt _ _
  | editPrevious => exact echoDue_editPrevious b
  | editNext => exact echoDue_editNext b
  | toFirst => exact echoDue_toFirst b
  | toEnd => exact echoDue_toEnd b
  | sync row => exact absurd rfl (hrow row)
  | complete => exact echoDue_complete b
  | drop target type data => exact echoDue_drop b target type data

/-- A row from outside settles what has been announced, whether or not it is taken. -/
theorem echoDue_sync (b : Bar) (row : List Matcher) : (b.sync row).echoDue = false := by
  unfold sync
  split
  · rfl
  · rename_i hnone
    dsimp only
    split
    · exact (echoDue_openTrailing _).trans (Bool.eq_false_iff.mpr hnone)
    · exact Bool.eq_false_iff.mpr hnone

/-- **The bar takes the next row for an echo exactly if an edit has been announced and no row has
come from outside since.** -/
theorem echoDue_iff_awaiting (h : Reachable b) : b.echoDue = true ↔ b.Awaiting := by
  constructor
  · intro hecho
    induction h with
    | new config owner => contradiction
    | equip _ hequips ih => exact .equip (ih (echoDue_equips hequips ▸ hecho)) hequips
    | @step b h operation ih =>
        by_cases hrow : ∃ row, operation = .sync row
        · obtain ⟨row, rfl⟩ := hrow
          have hsettled : (b.perform (.sync row)).1.echoDue = false := echoDue_sync b row
          exact absurd hecho (by simp [hsettled])
        · have hother : ∀ row, operation ≠ .sync row := fun row heq => hrow ⟨row, heq⟩
          rw [echoDue_perform b operation hother, Bool.or_eq_true] at hecho
          rcases hecho with hannounces | hdue
          · exact .announced h operation hannounces
          · exact .step (ih hdue) operation hother
  · intro hawaiting
    clear h
    induction hawaiting with
    | announced _ operation hannounces =>
        rw [echoDue_perform _ operation (by rintro row rfl; contradiction), hannounces]
        rfl
    | equip _ hequips ih => exact (echoDue_equips hequips).trans ih
    | step _ operation hrow ih => rw [echoDue_perform _ operation hrow, ih, Bool.or_true]

/-! ### Which rows are taken -/

theorem matchers_sync (b : Bar) (row : List Matcher) :
    (b.sync row).matchers = if b.echoDue then b.matchers else row := by
  cases hecho : b.echoDue with
  | true => exact (alike_sync_of_echo hecho row).row
  | false =>
      have htaken := (alike_sync_of_row hecho row).row
      split at htaken
      · exact htaken.trans (matchers_openAt ..)
      · exact htaken

/-- **A row from outside is taken exactly if no edit has been announced since the last one came**,
or if it is the row that is there.  Whether a matcher is still open does not count. -/
theorem sync_takes_row_iff (h : Reachable b) (row : List Matcher) :
    (b.sync row).matchers = row ↔ ¬ b.Awaiting ∨ b.matchers = row := by
  rw [matchers_sync, ← echoDue_iff_awaiting h]
  cases b.echoDue with
  | true => simp
  | false => simp

theorem sync_takes_row_iff_twoColours :
    let b := twoColours.run [.select 0, .input "gre", .sync [], .blur]
    let row := [colour "c" "blue"]
    b.Reachable ∧ b.active = none ∧ ¬ b.Awaiting ∧ (b.sync row).matchers = row := by
  intro b row
  have hreachable : b.Reachable := Reachable.run (.equip (.new ..) (.matchers _)) _
  have hsettled : ¬ b.Awaiting := by
    rw [← echoDue_iff_awaiting hreachable]
    decide
  exact ⟨hreachable, by decide, hsettled, (sync_takes_row_iff hreachable row).mpr (Or.inl hsettled)⟩

/-- **A row can be dropped although no matcher is open**: the text of one was touched before the bar
was blurred. -/
theorem sync_drops_row_after_blur :
    let b := twoColours.run [.select 0, .input "gre", .blur]
    let row := [colour "c" "blue"]
    b.Reachable ∧ b.active = none ∧ b.box.matcher = none ∧
      (b.sync row).matchers.map (·.key) = ["a", "b"] ∧ (b.sync row).matchers ≠ row := by
  intro b row
  have hreachable : b.Reachable := Reachable.run (.equip (.new ..) (.matchers _)) _
  have hkeys : (b.sync row).matchers.map (·.key) = ["a", "b"] := by decide
  refine ⟨hreachable, by decide, by decide, hkeys, ?_⟩
  intro htaken
  rw [htaken] at hkeys
  revert hkeys
  decide

end Bar

end QueryBar
