/-
Clicks and enter.

A click commits what stands on a slot; so does enter, on the slot that is highlighted.  Enter first
forgets the error and how the last key ended, and it looks at the text and at the buckets before it
comes to the slot.  The highlight, the error and the outcome of a key are for the reader of a box
only: nothing that is done with a bar looks at them on the way (`bare_heed`).  And where there is a
slot there is a search, whose text is never marked as free text, so that enter always gets as far
as the slot.  A click and enter thus leave the same bar behind (`enter_ends_as_choose`).
-/
import QueryBar.Proofs.Bar.Identity
import QueryBar.Proofs.Bar.Loading

namespace QueryBar

/-! ### Boxes without what is only for their reader -/

namespace EditBox

/-- The box without highlight, error and outcome. -/
def bare (e : EditBox) : EditBox := { e with highlighted := none, error := none, outcome := none }

variable {e : EditBox} {around : Surroundings} {keys : KeySupply}

theorem bare_place (e : EditBox) (first allowFunctions allowFreeText : Bool) :
    (e.place first allowFunctions allowFreeText).bare =
      e.bare.place first allowFunctions allowFreeText := by
  unfold place bare
  dsimp only
  split <;> rfl

end EditBox

namespace Turn

/-- The turn with its box bared. -/
def bare {α : Type} (turn : Turn α) : Turn α := { turn with box := turn.box.bare }

/-- The turn of a key that is taken in, whatever it comes to. -/
def takenIn (turn : Turn Reaction) : Turn Reaction :=
  { turn with answer := if turn.answer = .ignored then .handled else turn.answer }

end Turn

namespace EditBox

variable {e : EditBox} {around : Surroundings} {keys : KeySupply}

theorem bare_commit (e : EditBox) (around : Surroundings) (keys : KeySupply) (choice : Choice)
    (insert : Bool) :
    (e.bare.commit around keys choice insert).bare = (e.commit around keys choice insert).bare := by
  have hkey : e.bare.takeKey insert keys = e.takeKey insert keys := rfl
  have hcandidate : e.bare.candidate around.config = e.candidate around.config := by
    funext key choice
    cases choice <;> rfl
  unfold commit
  rw [hkey, hcandidate]
  dsimp only
  split
  · rfl
  · split
    · rfl
    · split <;> rfl

/-- **What is committed on a slot does not depend on what is only for the reader.** -/
theorem bare_select (e : EditBox) (around : Surroundings) (keys : KeySupply) (slot : Nat)
    (insert : Bool) :
    (e.bare.select around keys slot insert).bare = (e.select around keys slot insert).bare := by
  have hbuckets : e.bare.buckets = e.buckets := rfl
  unfold select
  rw [hbuckets]
  split
  · rfl
  · split
    · split <;> rfl
    · exact bare_commit e around keys _ insert

/-- **Enter on a slot commits what stands there**, unless the text is marked as free text. -/
theorem onEnter_of_highlighted {slot : Nat} (hplain : e.isQuoted = false) (hslot : slot < e.total)
    (hhighlighted : e.highlighted = some slot) (shift : Bool) :
    e.onEnter around keys shift = (e.select around keys slot shift).takenIn := by
  unfold onEnter Turn.takenIn
  rw [if_neg (by rw [show freeTextMark.toList.isPrefixOf e.text.toList = false from hplain]; simp),
    hhighlighted]
  cases hbuckets : e.buckets with
  | nil =>
      unfold total at hslot
      rw [hbuckets] at hslot
      exact absurd hslot (Nat.not_lt_zero slot)
  | cons bucket rest =>
      dsimp only
      split <;> rfl

/-- **Pressing enter on a slot comes to the same as clicking on it**, apart from what is only for
the reader. -/
theorem bare_key_enter {slot : Nat} {p : KeyPress} (hplain : e.isQuoted = false)
    (hslot : slot < e.total) (hkey : p.key = .enter) :
    ((e.highlight slot).key around keys p).bare =
      (e.select around keys slot p.shift).takenIn.bare := by
  let pointed : EditBox := { e with highlighted := some slot, error := none, outcome := none }
  have hmarked : e.highlight slot = { e with highlighted := some slot } := if_pos hslot
  obtain ⟨outcome, hconfirmed⟩ := (e.highlight slot).key_of_confirming around keys (Or.inl hkey)
  rw [hconfirmed, hmarked, onEnter_of_highlighted (e := pointed) hplain hslot rfl]
  have hselect : (pointed.select around keys slot p.shift).bare =
      (e.select around keys slot p.shift).bare :=
    (bare_select pointed around keys slot p.shift).symm.trans
      (bare_select e around keys slot p.shift)
  exact congrArg Turn.takenIn hselect

end EditBox

/-! ### Bars -/

namespace Bar

/-- The bar without what is only for the reader of its box. -/
def bare (b : Bar) : Bar := { b with box := b.box.bare }

variable {b b' : Bar}

theorem bare_placeBox (b : Bar) : b.placeBox.bare = b.bare.placeBox := by
  unfold placeBox bare
  dsimp only
  split
  · rw [EditBox.bare_place]
    rfl
  · rw [EditBox.bare_place]
    rfl

theorem bare_rowChanged (b : Bar) : b.rowChanged.bare = b.bare.rowChanged := by
  have hplaced := bare_placeBox b.flagBrackets
  unfold rowChanged
  exact congrArg (fun placed => tell placed placed.matchers) hplaced

theorem bare_useFunction (b : Bar) (f : Option QueryFunction) :
    (b.useFunction f).bare = b.bare.useFunction f := bare_placeBox { b with function := f }

theorem bare_openAt (b : Bar) (place : Option Nat) :
    (b.openAt place).bare = b.bare.openAt place := by
  unfold openAt
  dsimp only
  split
  · rename_i hopen
    exact (if_pos hopen).symm
  · rename_i hclosed
    refine Eq.trans ?_ (if_neg hclosed).symm
    unfold bare
    dsimp only
    split <;> rfl

theorem bare_closed (b : Bar) : b.openTrailing.rowChanged.bare = b.bare.openTrailing.rowChanged :=
  (bare_rowChanged b.openTrailing).trans (congrArg rowChanged (bare_openAt b none))

theorem bare_update (b : Bar) (m : Matcher) : (b.update m).1.bare = (b.bare.update m).1 := by
  have hplace : b.bare.placeOf? m.key = b.placeOf? m.key := rfl
  unfold update
  rw [hplace]
  split
  · rfl
  · rename_i i _
    exact bare_closed { b with matchers := b.matchers.set i m }

theorem bare_delete (b : Bar) (key : String) : (b.delete key).1.bare = (b.bare.delete key).1 := by
  let left : Bar := { b with matchers := b.matchers.filter (·.key != key) }
  have hleft : ∀ closes : Bool, (if closes then left.openTrailing else left).rowChanged.bare =
      (if closes then left.bare.openTrailing else left.bare).rowChanged := by
    intro closes
    cases closes with
    | true => exact bare_closed left
    | false => exact bare_rowChanged left
  have hrow : b.bare.matchers = b.matchers := rfl
  have hactive : b.bare.active = b.active := rfl
  unfold delete remove
  rw [hrow, hactive]
  dsimp only
  split
  · rfl
  · exact hleft _

theorem bare_insertBefore (b : Bar) (m : Matcher) (anchor : Option String) :
    ((b.insertBefore m anchor).toOption.getD b).bare =
      (b.bare.insertBefore m anchor).toOption.getD b.bare := by
  cases anchor with
  | none => exact bare_rowChanged { b with matchers := b.matchers ++ [m] }
  | some key =>
      have hplace : b.bare.placeOf? key = b.placeOf? key := rfl
      unfold insertBefore
      dsimp only
      rw [hplace]
      split
      · rfl
      · rename_i i _
        exact bare_rowChanged { b with
          matchers := b.matchers.take i ++ m :: b.matchers.drop i
          active := b.active.map fun a => if i ≤ a then a + 1 else a }

theorem bare_takeFocus (b : Bar) : b.takeFocus.bare = b.bare.takeFocus := by
  unfold takeFocus
  show (if b.hasFocus then b else _ : Bar).bare = if b.hasFocus then b.bare else _
  split
  · rfl
  · exact congrArg (fun opened : Bar => { opened with hasFocus := true }) (bare_openAt b none)

/-- **What is only for the reader of the box makes no difference to what the bar does for it.** -/
theorem bare_heed (edited : Option String) (b : Bar) (n : Notice) :
    (heed edited b n).bare = heed edited b.bare n := by
  cases n with
  | changed m =>
      cases m with
      | some m =>
          simp only [heed]
          split
          · exact bare_update b m
          · exact bare_rowChanged { b with matchers := b.matchers ++ [m] }
      | none =>
          simp only [heed]
          split
          · exact bare_delete b _
          · rfl
  | consulted m inserting => rfl
  | insert m => exact bare_insertBefore b m edited
  | editPrevious deleting =>
      simp only [heed]
      split
      · exact bare_delete b _
      · have hplace : b.bare.previousPlace = b.previousPlace := rfl
        unfold editPrevious
        rw [hplace]
        split
        · exact bare_openAt b _
        · rfl
  | editNext =>
      have hplace : b.bare.nextPlace = b.nextPlace := rfl
      simp only [heed]
      unfold editNext
      rw [hplace]
      split
      · exact bare_openAt b _
      · rfl
  | focus =>
      simp only [heed]
      split
      · exact bare_takeFocus b
      · rfl
  | cancel => exact bare_openAt b none
  | changing =>
      simp only [heed]
      split <;> rfl
  | setFunction f => exact bare_useFunction b (some f)
  | deleteFunction => exact bare_useFunction b none

theorem bare_foldl_heed (edited : Option String) (b : Bar) (notices : List Notice) :
    (notices.foldl (heed edited) b).bare = notices.foldl (heed edited) b.bare := by
  induction notices generalizing b with
  | nil => rfl
  | cons n rest ih =>
      rw [List.foldl_cons, List.foldl_cons, ih, bare_heed]

/-- A turn may be bared before or after it has been taken over. -/
theorem bare_takeTurn {α : Type} (b : Bar) (turn : Turn α) :
    (b.takeTurn turn).1.bare = (b.takeTurn turn.bare).1 :=
  bare_foldl_heed _ { b with box := turn.box, keys := turn.keys } turn.notices

/-- **Enter on a slot leaves the same bar behind as a click on it**, apart from what is only for the
reader of the box.  The bar does nothing with the key itself. -/
theorem bare_key_highlight {slot : Nat} {p : KeyPress} (hplain : b.box.isQuoted = false)
    (hslot : slot < b.box.total) (hkey : p.key = .enter) :
    ((b.highlight slot).key p).1.bare = (b.choose slot p.shift).1.bare ∧
      ((b.highlight slot).key p).2 = .edit (if (b.choose slot p.shift).2 = .ignored then .handled
        else (b.choose slot p.shift).2) := by
  let clicked := b.box.select b.surroundings b.keys slot p.shift
  let pressed := (b.box.highlight slot).key b.surroundings b.keys p
  have hturn : pressed.bare = clicked.takenIn.bare := EditBox.bare_key_enter hplain hslot hkey
  have hanswer : pressed.bare.answer = clicked.takenIn.bare.answer := by rw [hturn]
  have hused : pressed.answer ≠ .ignored := by
    show pressed.bare.answer ≠ .ignored
    rw [hanswer]
    unfold Turn.takenIn Turn.bare
    dsimp only
    split
    · simp
    · assumption
  rw [key_of_used (b := b.highlight slot) hused]
  refine ⟨?_, congrArg KeyResponse.edit hanswer⟩
  calc ((b.highlight slot).takeTurn pressed).1.bare
      = ((b.highlight slot).takeTurn pressed.bare).1 := bare_takeTurn ..
    _ = (b.takeTurn clicked.takenIn.bare).1 := by rw [hturn]; rfl
    _ = (b.takeTurn clicked).1.bare := (bare_takeTurn b clicked).symm

/-- The two bars have the same row, and so far as that is not only for its reader the same open
box. -/
structure EndsAs (b b' : Bar) : Prop where
  matchers : b'.matchers = b.matchers
  active : b'.active = b.active
  function : b'.function = b.function
  unbalanced : b'.unbalanced = b.unbalanced
  hasFocus : b'.hasFocus = b.hasFocus
  text : b'.box.text = b.box.text
  operator : b'.box.operator = b.box.operator
  comparison : b'.box.comparison = b.box.comparison
  matchText : b'.box.matchText = b.box.matchText
  buckets : b'.box.buckets = b.box.buckets
  generation : b'.generation = b.generation
  keys : b'.keys = b.keys
  told : b'.told = b.told

theorem EndsAs.of_bare (h : b'.bare = b.bare) : b.EndsAs b' where
  matchers := congrArg (·.matchers) h
  active := congrArg (·.active) h
  function := congrArg (·.function) h
  unbalanced := congrArg (·.unbalanced) h
  hasFocus := congrArg (·.hasFocus) h
  text := congrArg (·.box.text) h
  operator := congrArg (·.box.operator) h
  comparison := congrArg (·.box.comparison) h
  matchText := congrArg (·.box.matchText) h
  buckets := congrArg (·.box.buckets) h
  generation := congrArg (·.box.generation) h
  keys := congrArg (·.keys) h
  told := congrArg (·.told) h

end Bar

namespace Watch

variable {w : Watch} {slot : Nat} {p : KeyPress}

/-- Where there is a slot the text is searched for, so that it is not marked as free text. -/
theorem Reachable.isQuoted_of_slot (h : Reachable w) (hslot : slot < w.bar.box.total) :
    w.bar.box.isQuoted = false := by
  refine EditBox.invariant_unmarked.reachable h.bar ?_
  have hshown : w.bar.box.buckets ≠ [] := Buckets.total_pos_iff.mp (Nat.zero_lt_of_lt hslot)
  have hinquiry : w.inquiry ≠ none := fun hnone =>
    hshown ((sound_reachable h).closed hnone).2
  unfold inquiry at hinquiry
  split at hinquiry
  · assumption
  · contradiction

/-- **A click on a slot and enter on it do the same**, whatever stands there and whatever comes of
it, in every state of a bar to which answers are given only where they were asked for.  What is
committed joins the row exactly if shift was held. -/
theorem enter_ends_as_choose (h : Reachable w) (hslot : slot < w.bar.box.total)
    (hkey : p.key = .enter) :
    (w.bar.choose slot p.shift).1.EndsAs ((w.bar.highlight slot).key p).1 ∧
      ((w.bar.highlight slot).key p).2 =
        .edit (if (w.bar.choose slot p.shift).2 = .ignored then .handled
          else (w.bar.choose slot p.shift).2) := by
  obtain ⟨hbare, hresponse⟩ := Bar.bare_key_highlight (h.isQuoted_of_slot hslot) hslot hkey
  exact ⟨.of_bare hbare, hresponse⟩

/-- A third colour goes before the one that is edited. -/
theorem enter_ends_as_choose_paintbox :
    let w := ((on Bar.paintbox).step (.select 1)).step (.input "bl")
    let p : KeyPress := { key := .enter, shift := true }
    Reachable w ∧ 0 < w.bar.box.total ∧ p.key = .enter ∧
      (w.bar.choose 0 true).1.EndsAs ((w.bar.highlight 0).key p).1 ∧
      (w.bar.choose 0 true).1.matchers.map (·.text) = ["red", "blue", "green"] := by
  intro w p
  have hequipped : Reachable (on Bar.paintbox) :=
    .equip (.start Bar.paintbox.config 0) (.matchers Bar.paintbox.matchers)
  have hreachable : Reachable w :=
    (hequipped.step (.select 1) trivial).step (.input "bl") trivial
  have hslot : 0 < w.bar.box.total := by decide +kernel
  exact ⟨hreachable, hslot, rfl, (enter_ends_as_choose (p := p) hreachable hslot rfl).1,
    by decide +kernel⟩

end Watch

end QueryBar
