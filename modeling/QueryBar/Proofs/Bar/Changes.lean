/-
What may change in the row, and what the changes come to.

Whatever is done to a bar, it comes to at most one change of the row and of which matcher is
open, and there are only a few kinds of them (`RowChange`).  `Change` says what the row is
after a change and what has become of the open matcher; flags, focus and what the observer is
told do not occur in it.

Here is the change that each change of the row, each opening of a box and each of the bar's own
keys comes to.
-/
import QueryBar.Bar.Drag
import QueryBar.Bar.Keys

namespace QueryBar

/-- A change of the row or of which matcher is open. -/
inductive RowChange
  | stay
  /-- The open matcher is closed. -/
  | close
  /-- The matcher at a place is opened. -/
  | opened (place : Nat)
  /-- A matcher joins the end of the row. -/
  | join (m : Matcher)
  /-- A matcher is put in before the one at a place. -/
  | put (place : Nat) (m : Matcher)
  /-- A matcher takes the place of another one. -/
  | replace (place : Nat) (m : Matcher)
  | remove (key : String)
  | exchange (place other : Nat)
  | clear
  /-- Another row takes the place of the whole row. -/
  | take (row : List Matcher)

namespace RowChange

/-- The row after a change. -/
def apply (row : List Matcher) : RowChange → List Matcher
  | .stay | .close | .opened _ => row
  | .join m => row ++ [m]
  | .put i m => row.take i ++ m :: row.drop i
  | .replace i m => row.set i m
  | .remove key => row.filter (·.key != key)
  | .exchange i j => Bar.exchange row i j
  | .clear => []
  | .take taken => taken

/-- The matcher that comes into the row. -/
def incoming? : RowChange → Option Matcher
  | .join m | .put _ m | .replace _ m => some m
  | _ => none

/-- Something comes into the row that was not there before. -/
def bringsIn : RowChange → Bool
  | .join _ | .put _ _ | .replace _ _ | .take _ => true
  | _ => false

end RowChange

namespace Bar

variable {b b' b'' : Bar} {e : RowChange}

/-! ### What there is to know of a change -/

/-- No matcher is open. -/
structure Closed (b : Bar) : Prop where
  active : b.active = none
  held : b.box.matcher = none

/-- The same matcher is open, at the same place. -/
structure KeepsOpen (b b' : Bar) : Prop where
  active : b'.active = b.active
  held : b'.box.matcher = b.box.matcher

/-- What becomes of the open matcher.  It may stay open beside a removal only where nothing moves
that it depends on: it is none, or the last matcher goes and its own place is still there. -/
def Leaves (b b' : Bar) : RowChange → Prop
  | .stay | .join _ => b.KeepsOpen b'
  | .close | .clear => b'.Closed
  | .opened i => ∃ m, b.matchers[i]? = some m ∧ b'.active = some i ∧ b'.box.matcher = some m
  | .put i _ =>
    i < b.matchers.length ∧ b'.active = b.active.map (fun a => if i ≤ a then a + 1 else a) ∧
      b'.box.matcher = b.box.matcher
  | .replace i m => b.placeOf? m.key = some i ∧ b'.Closed
  | .remove key =>
    b'.Closed ∨ b.KeepsOpen b' ∧ ∀ a, b.active = some a →
      a < b'.matchers.length ∧ b.matchers.getLast?.map (·.key) = some key
  | .exchange i j =>
    i < b.matchers.length ∧ j < b.matchers.length ∧
      b'.active = b.active.map (fun a => if a = i then j else if a = j then i else a) ∧
      b'.box.matcher = b.box.matcher
  | .take row => b'.Closed ∨ b.KeepsOpen b' ∧ ∀ a, b.active = some a → a < row.length

/-- One change has been made; configuration and keys are as before. -/
structure Change (b b' : Bar) (e : RowChange) : Prop where
  config : b'.config = b.config
  keys : b'.keys = b.keys
  row : b'.matchers = e.apply b.matchers
  opened : b.Leaves b' e

/-- One change has been made, and no matcher has come into the row. -/
def Rearranges (b b' : Bar) : Prop := ∃ e, Change b b' e ∧ e.bringsIn = false

/-- The two bars do not differ in anything that changes are about. -/
structure Alike (b b' : Bar) : Prop extends KeepsOpen b b' where
  config : b'.config = b.config
  keys : b'.keys = b.keys
  row : b'.matchers = b.matchers

theorem KeepsOpen.closed (h : b.KeepsOpen b') (hclosed : b.Closed) : b'.Closed :=
  ⟨h.active.trans hclosed.active, h.held.trans hclosed.held⟩

theorem KeepsOpen.trans (h : b.KeepsOpen b') (h' : b'.KeepsOpen b'') : b.KeepsOpen b'' :=
  ⟨h'.active.trans h.active, h'.held.trans h.held⟩

theorem Alike.refl (b : Bar) : Alike b b := ⟨⟨rfl, rfl⟩, rfl, rfl, rfl⟩

theorem Alike.trans (h : Alike b b') (h' : Alike b' b'') : Alike b b'' :=
  ⟨h.toKeepsOpen.trans h'.toKeepsOpen, h'.config.trans h.config, h'.keys.trans h.keys,
    h'.row.trans h.row⟩

theorem Alike.change (h : Alike b b') : Change b b' .stay :=
  ⟨h.config, h.keys, h.row, h.toKeepsOpen⟩

theorem Alike.rearranges (h : Alike b b') : Rearranges b b' := ⟨.stay, h.change, rfl⟩

theorem Rearranges.refl (b : Bar) : Rearranges b b := (Alike.refl b).rearranges

/-- What becomes of the open matcher depends on the row and on which one it was. -/
theorem Leaves.congr_left (hkept : b.KeepsOpen b') (hrow : b'.matchers = b.matchers)
    (h : b'.Leaves b'' e) : b.Leaves b'' e := by
  have hactive := hkept.active
  cases e with
  | stay => exact hkept.trans h
  | join m => exact hkept.trans h
  | close => exact h
  | clear => exact h
  | opened i =>
      obtain ⟨m, hm, hactive', hheld'⟩ := h
      exact ⟨m, hrow ▸ hm, hactive', hheld'⟩
  | put i m =>
      obtain ⟨hi, hactive', hheld'⟩ := h
      exact ⟨hrow ▸ hi, hactive ▸ hactive', hheld'.trans hkept.held⟩
  | replace i m =>
      obtain ⟨hplace, hclosed⟩ := h
      refine ⟨?_, hclosed⟩
      unfold placeOf? at hplace ⊢
      exact hrow ▸ hplace
  | remove key => exact h.imp_right fun ⟨hkept', hlast⟩ =>
      ⟨hkept.trans hkept', hactive ▸ hrow ▸ hlast⟩
  | exchange i j =>
      obtain ⟨hi, hj, hactive', hheld'⟩ := h
      exact ⟨hrow ▸ hi, hrow ▸ hj, hactive ▸ hactive', hheld'.trans hkept.held⟩
  | take row => exact h.imp_right fun ⟨hkept', hplace⟩ => ⟨hkept.trans hkept', hactive ▸ hplace⟩

theorem Leaves.congr_right (h : b.Leaves b' e) (hkept : b'.KeepsOpen b'')
    (hrow : b''.matchers = b'.matchers) : b.Leaves b'' e := by
  cases e with
  | stay => exact KeepsOpen.trans h hkept
  | join m => exact KeepsOpen.trans h hkept
  | close => exact hkept.closed h
  | clear => exact hkept.closed h
  | opened i =>
      obtain ⟨m, hm, hactive', hheld'⟩ := h
      exact ⟨m, hm, hkept.active.trans hactive', hkept.held.trans hheld'⟩
  | put i m =>
      obtain ⟨hi, hactive', hheld'⟩ := h
      exact ⟨hi, hkept.active.trans hactive', hkept.held.trans hheld'⟩
  | replace i m => exact ⟨h.1, hkept.closed h.2⟩
  | remove key => exact h.imp hkept.closed fun ⟨hkept', hlast⟩ => ⟨hkept'.trans hkept, hrow ▸ hlast⟩
  | exchange i j =>
      obtain ⟨hi, hj, hactive', hheld'⟩ := h
      exact ⟨hi, hj, hkept.active.trans hactive', hkept.held.trans hheld'⟩
  | take row => exact h.imp hkept.closed fun ⟨hkept', hplace⟩ => ⟨hkept'.trans hkept, hplace⟩

theorem Change.congr_left (h : Alike b b') (hc : Change b' b'' e) : Change b b'' e :=
  ⟨hc.config.trans h.config, hc.keys.trans h.keys, h.row ▸ hc.row,
    hc.opened.congr_left h.toKeepsOpen h.row⟩

theorem Change.congr_right (hc : Change b b' e) (h : Alike b' b'') : Change b b'' e :=
  ⟨h.config.trans hc.config, h.keys.trans hc.keys, h.row.trans hc.row,
    hc.opened.congr_right h.toKeepsOpen h.row⟩

theorem Rearranges.congr_left (h : Alike b b') : Rearranges b' b'' → Rearranges b b''
  | ⟨e, hc, he⟩ => ⟨e, hc.congr_left h, he⟩

/-! ### Keeping in step with the row -/

theorem alike_placeBox (b : Bar) : Alike b b.placeBox := by
  refine ⟨⟨rfl, ?_⟩, rfl, rfl, rfl⟩
  unfold placeBox
  dsimp only
  split <;> rfl

theorem alike_flagged (b : Bar) : Alike b b.flagBrackets.placeBox :=
  (show Alike b b.flagBrackets from ⟨⟨rfl, rfl⟩, rfl, rfl, rfl⟩).trans (alike_placeBox _)

theorem alike_rowChanged (b : Bar) : Alike b b.rowChanged :=
  (alike_flagged b).trans ⟨⟨rfl, rfl⟩, rfl, rfl, rfl⟩

theorem alike_useFunction (b : Bar) (f : Option QueryFunction) : Alike b (b.useFunction f) :=
  (show Alike b { b with function := f } from ⟨⟨rfl, rfl⟩, rfl, rfl, rfl⟩).trans
    (alike_placeBox _)

/-! ### Opening boxes -/

theorem config_openAt (b : Bar) (place : Option Nat) : (b.openAt place).config = b.config := by
  unfold openAt
  dsimp only
  split <;> rfl

theorem keys_openAt (b : Bar) (place : Option Nat) : (b.openAt place).keys = b.keys := by
  unfold openAt
  dsimp only
  split <;> rfl

theorem matchers_openAt (b : Bar) (place : Option Nat) :
    (b.openAt place).matchers = b.matchers := by
  unfold openAt
  dsimp only
  split <;> rfl

theorem hasFocus_openAt (b : Bar) (place : Option Nat) :
    (b.openAt place).hasFocus = b.hasFocus := by
  unfold openAt
  dsimp only
  split <;> rfl

theorem closed_openTrailing (b : Bar) : b.openTrailing.Closed := by
  unfold openTrailing openAt
  dsimp only [Option.bind_none, Option.map_none]
  split
  · rename_i h
    exact ⟨h.1.symm, Option.map_eq_none_iff.mp h.2.symm⟩
  · exact ⟨rfl, rfl⟩

theorem change_openTrailing (b : Bar) : Change b b.openTrailing .close :=
  ⟨config_openAt .., keys_openAt .., matchers_openAt .., closed_openTrailing b⟩

theorem rearranges_openAt (b : Bar) (place : Option Nat) : Rearranges b (b.openAt place) := by
  cases htarget : place.bind fun i => b.matchers[i]?.map fun m => (i, m) with
  | none =>
      have htrailing : b.openAt place = b.openTrailing := by
        unfold openTrailing openAt
        rw [htarget]
        rfl
      exact ⟨.close, htrailing ▸ change_openTrailing b, rfl⟩
  | some target =>
      obtain ⟨i, -, hfound⟩ := Option.bind_eq_some_iff.mp htarget
      obtain ⟨m, hm, rfl⟩ := Option.map_eq_some_iff.mp hfound
      by_cases hsame : some i = b.active ∧ some m.key = b.box.matcher.map (·.key)
      · have hstays : b.openAt place = b := by
          unfold openAt
          rw [htarget]
          exact if_pos hsame
        rw [hstays]
        exact Rearranges.refl b
      · refine ⟨.opened i, ⟨config_openAt .., keys_openAt .., matchers_openAt .., m, hm, ?_⟩, rfl⟩
        unfold openAt
        rw [htarget]
        dsimp only [Option.map_some]
        rw [if_neg hsame]
        exact ⟨rfl, rfl⟩

theorem rearranges_takeFocus (b : Bar) : Rearranges b b.takeFocus := by
  unfold takeFocus
  split
  · exact Rearranges.refl b
  · exact ⟨.close, (change_openTrailing b).congr_right ⟨⟨rfl, rfl⟩, rfl, rfl, rfl⟩, rfl⟩

theorem alike_resetBox (b : Bar) : Alike b { b with box := b.box.reset } :=
  ⟨⟨rfl, rfl⟩, rfl, rfl, rfl⟩

theorem rearranges_blur (b : Bar) : Rearranges b b.blur := by
  have hfocus : Alike b { b with hasFocus := false } := ⟨⟨rfl, rfl⟩, rfl, rfl, rfl⟩
  exact ⟨.close, ((change_openTrailing _).congr_left hfocus).congr_right (alike_resetBox _), rfl⟩

/-! ### Changes of the row -/

/-- A key has a place in the row exactly if a matcher has that key. -/
theorem exists_placeOf?_iff {key : String} :
    (∃ i, b.placeOf? key = some i) ↔ key ∈ b.matchers.map (·.key) := by
  unfold placeOf?
  rw [← Option.isSome_iff_exists, List.findIdx?_isSome]
  simp

theorem change_add (b : Bar) (m : Matcher) : Change b (b.add m) (.join m) := by
  have hrow : Change b { b with matchers := b.matchers ++ [m] } (.join m) :=
    ⟨rfl, rfl, rfl, rfl, rfl⟩
  exact hrow.congr_right (alike_rowChanged _)

/-- The row is changed and the edit closed. -/
theorem change_of_row {row : List Matcher} (hrow : row = e.apply b.matchers)
    (hopened : ∀ {b' : Bar}, b'.Closed → b.Leaves b' e) :
    Change b { b with matchers := row }.openTrailing.rowChanged e := by
  have hclosed := closed_openTrailing { b with matchers := row }
  have hchange : Change b { b with matchers := row }.openTrailing e :=
    ⟨config_openAt .., keys_openAt .., (matchers_openAt ..).trans hrow, hopened hclosed⟩
  exact hchange.congr_right (alike_rowChanged _)

/-- A matcher takes the place of the one with its key, and the edit is closed. -/
theorem change_update_of_place {m : Matcher} {i : Nat} (h : b.placeOf? m.key = some i) :
    Change b (b.update m).1 (.replace i m) := by
  unfold update
  rw [h]
  exact change_of_row rfl fun hclosed => ⟨h, hclosed⟩

/-- A matcher that is not in the row cannot be updated, any other one is replaced. -/
theorem change_update (b : Bar) (m : Matcher) :
    Change b (b.update m).1 .stay ∨ ∃ i, Change b (b.update m).1 (.replace i m) := by
  cases hplace : b.placeOf? m.key with
  | none =>
      unfold update
      rw [hplace]
      exact Or.inl (Alike.refl b).change
  | some i => exact Or.inr ⟨i, change_update_of_place hplace⟩

theorem rearranges_remove (b : Bar) (key : String) (closeEdit : Bool)
    (h : closeEdit = true ∨ b.matchers.getLast?.map (·.key) = some key) :
    Rearranges b (b.remove key closeEdit).1 := by
  unfold remove
  dsimp only
  split
  · exact Rearranges.refl b
  · refine ⟨.remove key, ?_, rfl⟩
    split
    · exact change_of_row rfl Or.inl
    · rename_i hstays
      have hrow : Change b { b with matchers := b.matchers.filter (·.key != key) }
          (.remove key) := by
        refine ⟨rfl, rfl, rfl, Or.inr ⟨⟨rfl, rfl⟩, ?_⟩⟩
        intro a ha
        rw [ha, Option.any_some, Bool.or_eq_true, decide_eq_true_eq, not_or, Nat.not_le] at hstays
        exact ⟨hstays.2, h.resolve_left hstays.1⟩
      exact hrow.congr_right (alike_rowChanged _)

theorem rearranges_delete (b : Bar) (key : String) : Rearranges b (b.delete key).1 :=
  rearranges_remove b key true (Or.inl rfl)

theorem rearranges_deleteLast (b : Bar) : Rearranges b b.deleteLast := by
  unfold deleteLast
  split
  · rename_i m hlast
    exact rearranges_remove b m.key false (Or.inr (by rw [hlast, Option.map_some]))
  · split
    · exact (alike_useFunction ..).rearranges
    · exact Rearranges.refl b

theorem rearranges_deleteAll (b : Bar) : Rearranges b b.deleteAll := by
  have hfunction : Alike b { b with function := none } := ⟨⟨rfl, rfl⟩, rfl, rfl, rfl⟩
  have hchange : Change { b with function := none } b.deleteAll .clear :=
    change_of_row rfl id
  exact ⟨.clear, hchange.congr_left hfunction, rfl⟩

/-- A matcher is put in before the one with the key it is anchored at. -/
theorem change_insertBefore_of_place {m : Matcher} {key : String} {i : Nat}
    (h : b.placeOf? key = some i) :
    ∃ b', b.insertBefore m (some key) = .ok b' ∧ Change b b' (.put i m) := by
  unfold insertBefore
  dsimp only
  rw [h]
  obtain ⟨hi, -, -⟩ := List.findIdx?_eq_some_iff_getElem.mp h
  refine ⟨_, rfl, Change.congr_right ?_ (alike_rowChanged _)⟩
  exact ⟨rfl, rfl, rfl, hi, rfl, rfl⟩

/-- A matcher joins the row, or is put in before its anchor. -/
theorem change_insertBefore {m : Matcher} {anchor : Option String}
    (h : b.insertBefore m anchor = .ok b') :
    anchor = none ∧ Change b b' (.join m) ∨ anchor.isSome ∧ ∃ i, Change b b' (.put i m) := by
  cases anchor with
  | none =>
      obtain rfl := Except.ok.inj h
      exact Or.inl ⟨rfl, change_add b m⟩
  | some key =>
      cases hplace : b.placeOf? key with
      | none =>
          unfold insertBefore at h
          simp [hplace] at h
      | some i =>
          obtain ⟨left, hleft, hc⟩ := change_insertBefore_of_place (m := m) hplace
          obtain rfl := Except.ok.inj (hleft.symm.trans h)
          exact Or.inr ⟨rfl, i, hc⟩

theorem rearranges_swap (b : Bar) (key other : String) : Rearranges b (b.swap key other).1 := by
  unfold swap
  split
  · rename_i i j hplace hplace'
    obtain ⟨hi, -, -⟩ := List.findIdx?_eq_some_iff_getElem.mp hplace
    obtain ⟨hj, -, -⟩ := List.findIdx?_eq_some_iff_getElem.mp hplace'
    refine ⟨.exchange i j, Change.congr_right ?_ (alike_rowChanged _), rfl⟩
    exact ⟨rfl, rfl, rfl, hi, hj, rfl, rfl⟩
  · exact Rearranges.refl b

/-- To move the active matcher does nothing, or exchanges two matchers. -/
theorem moveActive_eq_or (b : Bar) (forward : Bool) :
    b.moveActive forward = (b, false) ∨
      ∃ key other, b.moveActive forward = b.swap key other := by
  unfold moveActive
  dsimp only
  split
  · exact Or.inl rfl
  · split
    · exact Or.inl rfl
    · split
      · exact Or.inr ⟨_, _, rfl⟩
      · exact Or.inl rfl

/-- So does a drop. -/
theorem drop_eq_or (b : Bar) (target type data : String) :
    b.drop target type data = (b, false) ∨
      ∃ key other, b.drop target type data = b.swap key other := by
  unfold drop
  split
  · split
    · exact Or.inr ⟨_, _, rfl⟩
    · exact Or.inl rfl
  · exact Or.inl rfl

theorem rearranges_moveActive (b : Bar) (forward : Bool) :
    Rearranges b (b.moveActive forward).1 := by
  rcases b.moveActive_eq_or forward with hstays | ⟨_, _, hswap⟩
  · rw [hstays]
    exact Rearranges.refl b
  · rw [hswap]
    exact rearranges_swap ..

theorem rearranges_drop (b : Bar) (target type data : String) :
    Rearranges b (b.drop target type data).1 := by
  rcases b.drop_eq_or target type data with hstays | ⟨_, _, hswap⟩
  · rw [hstays]
    exact Rearranges.refl b
  · rw [hswap]
    exact rearranges_swap ..

/-- The echo of an edit is not taken. -/
theorem alike_sync_of_echo (h : b.echoDue = true) (row : List Matcher) :
    Alike b (b.sync row) := by
  unfold sync
  rw [if_pos h]
  exact ⟨⟨rfl, rfl⟩, rfl, rfl, rfl⟩

/-- Any other row is taken.  If the active place is gone the edit is closed, and otherwise it stays
as it was. -/
theorem alike_sync_of_row (h : b.echoDue = false) (row : List Matcher) :
    Alike (if b.active.any (row.length ≤ ·) then { b with matchers := row }.openTrailing
      else { b with matchers := row }) (b.sync row) := by
  unfold sync
  rw [h]
  exact alike_flagged _

theorem change_sync (b : Bar) (row : List Matcher) :
    Change b (b.sync row) .stay ∨ Change b (b.sync row) (.take row) := by
  cases hecho : b.echoDue with
  | true => exact Or.inl (alike_sync_of_echo hecho row).change
  | false =>
      refine Or.inr (Change.congr_right ?_ (alike_sync_of_row hecho row))
      split
      · exact ⟨config_openAt .., keys_openAt .., matchers_openAt ..,
          Or.inl (closed_openTrailing _)⟩
      · rename_i hstays
        refine ⟨rfl, rfl, rfl, Or.inr ⟨⟨rfl, rfl⟩, ?_⟩⟩
        intro a ha
        rw [ha, Option.any_some, decide_eq_true_eq, Nat.not_le] at hstays
        exact hstays

theorem rearranges_complete (b : Bar) : Rearranges b b.complete.1 := by
  unfold complete
  split
  · exact Rearranges.refl b
  · refine ⟨.clear, Change.congr_right ?_ (alike_rowChanged _), rfl⟩
    refine Change.congr_right ?_ (alike_resetBox _)
    exact ⟨config_openAt .., keys_openAt .., matchers_openAt .., closed_openTrailing _⟩

/-! ### Selections -/

theorem rearranges_select (b : Bar) (place : Nat) : Rearranges b (b.select place) :=
  have hfocus : Alike b { b with hasFocus := true } := ⟨⟨rfl, rfl⟩, rfl, rfl, rfl⟩
  (rearranges_openAt _ (some place)).congr_left hfocus

theorem rearranges_editPrevious (b : Bar) : Rearranges b b.editPrevious := by
  unfold editPrevious
  split
  · exact rearranges_openAt ..
  · exact Rearranges.refl b

theorem rearranges_editNext (b : Bar) : Rearranges b b.editNext := by
  unfold editNext
  split
  · exact rearranges_openAt ..
  · exact Rearranges.refl b

theorem rearranges_toFirst (b : Bar) : Rearranges b b.toFirst.1 := by
  unfold toFirst
  split
  · exact Rearranges.refl b
  · exact rearranges_openAt ..

theorem rearranges_toEnd (b : Bar) : Rearranges b b.toEnd.1 := by
  unfold toEnd
  split
  · exact Rearranges.refl b
  · exact ⟨.close, change_openTrailing b, rfl⟩

/-- What the bar does with a key of its own brings nothing into the row. -/
theorem rearranges_command (b : Bar) (p : KeyPress) : Rearranges b (b.command p).1 := by
  unfold command
  cases p.key with
  | arrowLeft =>
      dsimp only
      split
      · exact rearranges_openAt ..
      · split
        · exact rearranges_moveActive b false
        · exact Rearranges.refl b
  | arrowRight =>
      dsimp only
      split
      · exact rearranges_openAt ..
      · split
        · exact rearranges_moveActive b true
        · exact Rearranges.refl b
  | backspace =>
      dsimp only
      split
      · exact rearranges_deleteLast b
      · split
        · exact rearranges_deleteAll b
        · exact Rearranges.refl b
  | enter =>
      have hcomplete := rearranges_complete b
      dsimp only
      split <;> rename_i h <;> rw [h] at hcomplete <;> exact hcomplete
  | home => exact rearranges_toFirst b
  | finish => exact rearranges_toEnd b
  | arrowUp => exact Rearranges.refl b
  | arrowDown => exact Rearranges.refl b
  | pageUp => exact Rearranges.refl b
  | pageDown => exact Rearranges.refl b
  | tab => exact Rearranges.refl b
  | escape => exact Rearranges.refl b

end Bar

end QueryBar
