/-
The highlight can always be used.

Whatever was done to a bar, as long as answers were given only where they were asked for: where there
is anything to stop on, the highlight is on one of the slots, so that enter has a slot to act on;
and where there is no text, nothing is offered and nothing is highlighted
(`highlight_always_usable`).

The index of the highlight is kept while the text and the buckets change under it.  It is put right
where answers come in and where a text is typed, and the other operations leave it where it is,
clear it, or have a slot to put it on (`Repoints`).  That nothing is offered without a text is a
matter of the search: what is shown belongs to the search that was called for last, and nothing is
searched for without a text.
-/
import QueryBar.Proofs.Bar.Clicks

namespace QueryBar

namespace EditBox

variable {e e' e'' : EditBox} {around : Surroundings} {keys : KeySupply}

/-! ### Boxes without a text -/

/-- Nothing is highlighted where there is neither a text nor anything to stop on. -/
def Unlit (e : EditBox) : Prop :=
  e.text.isEmpty = true → e.buckets = [] → e.highlighted = none

/-- What may become of the highlight without a new text: it stays as it is, it is cleared, or there
are slots for it to be on. -/
inductive Repoints (e e' : EditBox) : Prop
  | stays (htext : e'.text = e.text) (hbuckets : e'.buckets = e.buckets)
    (hhighlighted : e'.highlighted = e.highlighted) : Repoints e e'
  | clears (hhighlighted : e'.highlighted = none) : Repoints e e'
  | offers (hbuckets : e'.buckets ≠ []) : Repoints e e'

theorem Repoints.unlit (h : e.Repoints e') (hunlit : e.Unlit) : e'.Unlit := by
  intro htext hempty
  cases h with
  | stays htext' hbuckets' hhighlighted' =>
      rw [hhighlighted']
      exact hunlit (htext' ▸ htext) (hbuckets' ▸ hempty)
  | clears hhighlighted => exact hhighlighted
  | offers hbuckets => exact absurd hempty hbuckets

theorem Repoints.of_slots (h : e'.total ≠ 0) : e.Repoints e' :=
  .offers (Buckets.total_pos_iff.mp (Nat.pos_of_ne_zero h))

theorem Repoints.refl (e : EditBox) : e.Repoints e := .stays rfl rfl rfl

theorem Repoints.trans (h : e.Repoints e') (h' : e'.Repoints e'') : e.Repoints e'' := by
  cases h' with
  | clears hhighlighted' => exact .clears hhighlighted'
  | offers hbuckets' => exact .offers hbuckets'
  | stays htext' hbuckets' hhighlighted' =>
      cases h with
      | stays htext hbuckets hhighlighted =>
          exact .stays (htext'.trans htext) (hbuckets'.trans hbuckets)
            (hhighlighted'.trans hhighlighted)
      | clears hhighlighted => exact .clears (hhighlighted'.trans hhighlighted)
      | offers hbuckets => exact .offers (hbuckets' ▸ hbuckets)

/-- To settle the highlight is to clear it where there is no text. -/
theorem unlit_settleHighlight (e : EditBox) : e.settleHighlight.Unlit := by
  intro htext _
  rw [(resembles_settleHighlight e).text] at htext
  unfold settleHighlight
  rw [if_pos htext]

theorem highlighted_reopen (e : EditBox) (mode : OperatorMode) :
    (e.reopen mode).highlighted = none := by
  unfold reopen
  dsimp only
  split <;> rfl

/-- The keys that move the highlight have slots to move it to. -/
theorem repoints_stepHighlight (e : EditBox) (forward : Bool) :
    e.Repoints (e.stepHighlight forward).1 := by
  unfold stepHighlight
  dsimp only
  split
  · exact .refl e
  · rename_i htotal
    exact .of_slots htotal

theorem repoints_pageHighlight (e : EditBox) (forward : Bool) :
    e.Repoints (e.pageHighlight forward).1 := by
  unfold pageHighlight
  dsimp only
  split
  · exact .refl e
  · rename_i htotal
    exact .of_slots htotal

theorem repoints_jumpHighlight (e : EditBox) (toEnd : Bool) :
    e.Repoints (e.jumpHighlight toEnd).1 := by
  unfold jumpHighlight
  dsimp only
  split
  · exact .refl e
  · rename_i htotal
    exact .of_slots htotal

theorem highlight_of_highlighted {slot : Nat} (h : e.highlighted = some slot) :
    e.highlight slot = e := by
  unfold highlight
  split
  · rw [← h]
  · rfl

theorem repoints_highlight (e : EditBox) (slot : Nat) : e.Repoints (e.highlight slot) := by
  unfold highlight
  split
  · rename_i hlt
    exact .offers (Buckets.total_pos_iff.mp (Nat.zero_lt_of_lt hlt))
  · exact .refl e

theorem repoints_commit (e : EditBox) (around : Surroundings) (keys : KeySupply) (choice : Choice)
    (insert : Bool) : e.Repoints (e.commit around keys choice insert).box := by
  unfold commit
  dsimp only
  split
  · exact .stays rfl rfl rfl
  · split
    · exact .stays rfl rfl rfl
    · split
      · exact .refl e
      · exact .clears rfl

theorem repoints_takeBracket (e : EditBox) (around : Surroundings) (keys : KeySupply)
    (b : Bracket) : e.Repoints (e.takeBracket around keys b).box := by
  unfold takeBracket
  split
  · exact .clears (e.highlighted_reopen _)
  · exact e.repoints_commit around keys _ _

theorem repoints_select (e : EditBox) (around : Surroundings) (keys : KeySupply) (slot : Nat)
    (insert : Bool) : e.Repoints (e.select around keys slot insert).box := by
  unfold select
  split
  · exact .refl e
  · split
    · split
      · exact .clears rfl
      · exact .refl e
    · exact e.repoints_commit around keys _ _

theorem repoints_leave (e : EditBox) (keys : KeySupply) : e.Repoints (e.leave keys).box := by
  unfold leave
  split
  · split
    · exact .clears rfl
    · exact .refl e
  · exact .refl e

theorem repoints_onEnter (e : EditBox) (around : Surroundings) (keys : KeySupply) (shift : Bool) :
    e.Repoints (e.onEnter around keys shift).box := by
  unfold onEnter commitFreeText
  split
  · split
    · exact .clears rfl
    · exact .refl e
  · split
    · dsimp only
      split <;> exact e.repoints_select around keys _ _
    · exact e.repoints_leave keys

theorem repoints_react (e : EditBox) (around : Surroundings) (keys : KeySupply) (p : KeyPress) :
    e.Repoints (e.react around keys p).box := by
  unfold react
  cases p.key with
  | arrowLeft | arrowRight => dsimp only; split <;> exact .refl e
  | arrowUp => exact e.repoints_stepHighlight false
  | arrowDown => exact e.repoints_stepHighlight true
  | pageUp => exact e.repoints_pageHighlight false
  | pageDown => exact e.repoints_pageHighlight true
  | home => exact e.repoints_jumpHighlight false
  | finish => exact e.repoints_jumpHighlight true
  | enter | tab => exact e.repoints_onEnter around keys p.shift
  | backspace =>
      unfold onBackspace
      dsimp only
      split
      · split
        · exact .refl e
        · split
          · exact .clears rfl
          · exact .refl e
      · exact .refl e
  | escape =>
      unfold onEscape
      dsimp only
      split
      · exact .refl e
      · split
        · exact .refl e
        · exact .clears rfl

theorem repoints_key (e : EditBox) (around : Surroundings) (keys : KeySupply) (p : KeyPress) :
    e.Repoints (e.key around keys p).box := by
  let cleared : EditBox := { e with error := none, outcome := none }
  have hcleared : e.Repoints cleared := .stays rfl rfl rfl
  have hreact := hcleared.trans (cleared.repoints_react around keys p)
  unfold key
  dsimp only
  split
  · exact hreact.trans (.stays rfl rfl rfl)
  · exact hreact

theorem unlit_typeText (e : EditBox) (around : Surroundings) (keys : KeySupply) (text : String) :
    (e.typeText around keys text).box.Unlit := by
  unfold typeText
  dsimp only
  split
  · exact unlit_settleHighlight _
  · split
    · exact (repoints_takeBracket _ around keys _).unlit (unlit_settleHighlight _)
    · exact unlit_settleHighlight _

theorem Unlit.takeAnswer (h : e.Unlit) (c : Config) (a : LookupAnswer) :
    (e.takeAnswer c a).1.Unlit := by
  unfold EditBox.takeAnswer
  split
  · split
    · exact unlit_settleHighlight _
    · exact h
  · exact h

/-- **Nothing is highlighted where there is neither a text nor a slot**, whatever is done to a
bar. -/
theorem invariant_unlit : Invariant Unlit where
  trailing _ _ _ _ _ _ := rfl
  editing _ _ _ _ _ _ _ := rfl
  place _ _ _ _ h := h
  reset _ _ _ _ := rfl
  typeText e around keys text _ := e.unlit_typeText around keys text
  select e around keys slot insert h := (e.repoints_select around keys slot insert).unlit h
  key e around keys p h := (e.repoints_key around keys p).unlit h
  highlight e slot h := (e.repoints_highlight slot).unlit h
  takeAnswer _ c a h := h.takeAnswer c a

end EditBox

namespace Watch

variable {w : Watch}

/-- Nothing is offered for an empty text. -/
theorem Reachable.no_buckets_of_empty (h : Reachable w)
    (hempty : w.bar.box.text.isEmpty = true) : w.bar.box.buckets = [] := by
  have hunsearched : w.bar.box.matchText.isSome = false := by
    by_contra hsearched
    rw [Bool.not_eq_false] at hsearched
    have htext := (Bar.inOrder_reachable h.bar).legible hsearched
    rw [hempty] at htext
    contradiction
  have hnone : w.inquiry = none := by
    unfold inquiry
    rw [hunsearched]
    rfl
  exact ((sound_reachable h).closed hnone).2

/-- Where there is a slot, there is one that is highlighted. -/
theorem Reachable.exists_highlighted (h : Reachable w) (hslots : 0 < w.bar.box.total) :
    ∃ slot < w.bar.box.total, w.bar.box.highlighted = some slot := by
  have htext : w.bar.box.text.isEmpty = false := by
    by_contra hempty
    rw [Bool.not_eq_false] at hempty
    exact Buckets.total_pos_iff.mp hslots (h.no_buckets_of_empty hempty)
  obtain ⟨slot, hslot, hlt⟩ := EditBox.invariant_pointed.reachable h.bar htext hslots
  exact ⟨slot, hlt, hslot⟩

/-- **The highlight can always be used.**  Without a text nothing is offered and nothing is
highlighted.  Where there is a slot at all, one is highlighted, and enter commits what stands there,
as picking that slot does: the bar does not act on the key itself. -/
theorem highlight_always_usable (h : Reachable w) :
    (w.bar.box.text = "" → w.bar.box.buckets = [] ∧ w.bar.box.highlighted = none) ∧
      (0 < w.bar.box.total → ∃ slot < w.bar.box.total, w.bar.box.highlighted = some slot ∧
        ∀ p : KeyPress, p.key = .enter →
          (w.bar.choose slot p.shift).1.EndsAs (w.bar.key p).1 ∧
            (w.bar.key p).2 = .edit (if (w.bar.choose slot p.shift).2 = .ignored then .handled
              else (w.bar.choose slot p.shift).2)) := by
  constructor
  · intro htext
    have hempty : w.bar.box.text.isEmpty = true := by rw [htext]; rfl
    have hbuckets := h.no_buckets_of_empty hempty
    exact ⟨hbuckets, EditBox.invariant_unlit.reachable h.bar hempty hbuckets⟩
  · intro hslots
    obtain ⟨slot, hlt, hslot⟩ := h.exists_highlighted hslots
    refine ⟨slot, hlt, hslot, fun p hkey => ?_⟩
    have hstays : w.bar.highlight slot = w.bar := by
      unfold Bar.highlight
      rw [EditBox.highlight_of_highlighted hslot]
    obtain ⟨hbare, hresponse⟩ := Bar.bare_key_highlight (h.isQuoted_of_slot hlt) hlt hkey
    rw [hstays] at hbare hresponse
    exact ⟨.of_bare hbare, hresponse⟩

/-- The highlight has been moved to the tints, and then the answer comes that there are none. -/
def shadesOnly : Watch :=
  (((start shadesAndTints 0).step (.input "re")).step (.key { key := .arrowDown })).step
    (.takeAnswer noTint)

theorem highlight_always_usable_shadesOnly :
    let left := shadesOnly.step (.key { key := .escape })
    Reachable shadesOnly ∧ shadesOnly.bar.box.total = 1 ∧
      shadesOnly.bar.box.highlighted = some 0 ∧ Reachable left ∧ left.bar.box.text = "" ∧
      left.bar.box.buckets = [] ∧ left.bar.box.highlighted = none := by
  intro left
  have hmoved : Reachable (((start shadesAndTints 0).step (.input "re")).step
      (.key { key := .arrowDown })) :=
    ((Reachable.start _ 0).step (.input "re") trivial).step _ trivial
  have hreachable : Reachable shadesOnly := by
    refine hmoved.step (.takeAnswer noTint) ?_
    exact ⟨{ shadeRequest 1 "re" with source := "tint" }, ⟨rfl, rfl, rfl, rfl⟩,
      Or.inl (List.mem_cons_of_mem _ List.mem_cons_self)⟩
  have hleft : Reachable left := hreachable.step (.key { key := .escape }) trivial
  have htotal : shadesOnly.bar.box.total = 1 := rfl
  obtain ⟨slot, hlt, hslot, -⟩ := (highlight_always_usable hreachable).2 (by omega)
  obtain rfl : slot = 0 := by omega
  obtain ⟨hbuckets, hhighlighted⟩ := (highlight_always_usable hleft).1 rfl
  exact ⟨hreachable, htotal, hslot, hleft, rfl, hbuckets, hhighlighted⟩

end Watch

end QueryBar
