/-
Where the highlight stands, and what enter does there.

As long as there is a text, the highlight is on a slot that exists whenever there is one
(`Pointed`).  It is put right where the buckets change, and the keys that move it only lead to
slots that exist.  Apart from that the buckets only change where they are emptied, which leaves
no slot for the highlight to miss.

Enter therefore is left to the owner of the box only where nothing at all is offered and no matcher
is edited, unless the text is marked as free text (`answer_onEnter_eq_ignored_iff`).
-/
import QueryBar.Proofs.Buckets.Slots
import QueryBar.Proofs.EditBox.Commits
import QueryBar.Proofs.EditBox.Courses

namespace QueryBar.EditBox

/-- The highlight is on a slot, as far as there is a text and a slot to be on. -/
def Pointed (e : EditBox) : Prop :=
  e.text.isEmpty = false → 0 < e.total → ∃ slot, e.highlighted = some slot ∧ slot < e.total

variable {e e' : EditBox}

theorem pointed_of_no_buckets (h : e.buckets = []) : e.Pointed := by
  intro _ htotal
  exact absurd h (Buckets.total_pos_iff.mp htotal)

theorem Pointed.congr (h : e.Pointed) (htext : e'.text = e.text) (hbuckets : e'.buckets = e.buckets)
    (hhighlighted : e'.highlighted = e.highlighted) : e'.Pointed := by
  unfold Pointed total at h ⊢
  rw [htext, hbuckets, hhighlighted]
  exact h

/-- A slot that exists may always be highlighted. -/
theorem pointed_of_lt {slot : Nat} (h : slot < e.total) :
    Pointed { e with highlighted := some slot } :=
  fun _ _ => ⟨slot, rfl, h⟩

/-- **After the highlight has been settled it is on a slot**, wherever it was. -/
theorem pointed_settleHighlight (e : EditBox) : e.settleHighlight.Pointed := by
  unfold settleHighlight
  split
  · rename_i hempty
    intro htext _
    exact absurd (hempty.symm.trans htext) (by simp)
  · split
    · rename_i hnone
      intro _ htotal
      exact absurd hnone (Nat.ne_of_gt htotal)
    · rename_i htotal
      split
      · exact pointed_of_lt (Nat.pos_of_ne_zero htotal)
      · rename_i slot hslot
        split
        · rename_i hlt
          exact fun _ _ => ⟨slot, hslot, hlt⟩
        · refine pointed_of_lt ?_
          omega

/-! ### Moving the highlight -/

theorem Pointed.stepHighlight (h : e.Pointed) (forward : Bool) :
    (e.stepHighlight forward).1.Pointed := by
  unfold EditBox.stepHighlight
  dsimp only
  split
  · exact h
  · intro htext htotal
    obtain ⟨slot, hslot, hlt⟩ := h htext htotal
    dsimp only
    rw [hslot]
    exact ⟨_, rfl, Cycle.go_lt hlt forward⟩

theorem Pointed.pageHighlight (h : e.Pointed) (forward : Bool) :
    (e.pageHighlight forward).1.Pointed := by
  unfold EditBox.pageHighlight
  dsimp only
  split
  · exact h
  · rename_i htotal
    exact pointed_of_lt (Buckets.turnPage_lt (Nat.pos_of_ne_zero htotal) _ forward)

theorem Pointed.jumpHighlight (h : e.Pointed) (toEnd : Bool) :
    (e.jumpHighlight toEnd).1.Pointed := by
  unfold EditBox.jumpHighlight
  dsimp only
  split
  · exact h
  · refine pointed_of_lt ?_
    split <;> omega

theorem Pointed.highlight (h : e.Pointed) (slot : Nat) : (e.highlight slot).Pointed := by
  unfold EditBox.highlight
  split
  · rename_i hlt
    exact pointed_of_lt hlt
  · exact h

/-! ### Committing and leaving -/

variable {around : Surroundings} {keys : KeySupply}

theorem Pointed.commit (h : e.Pointed) (choice : Choice) (insert : Bool) :
    (e.commit around keys choice insert).box.Pointed := by
  unfold EditBox.commit
  dsimp only
  split
  · exact h.congr rfl rfl rfl
  · split
    · exact h.congr rfl rfl rfl
    · split
      · exact h
      · exact pointed_of_no_buckets rfl

theorem Pointed.takeBracket (h : e.Pointed) (b : Bracket) :
    (e.takeBracket around keys b).box.Pointed := by
  unfold EditBox.takeBracket
  split
  · exact pointed_of_no_buckets (e.closes_reopen _).buckets
  · exact h.commit _ _

theorem Pointed.select (h : e.Pointed) (slot : Nat) (insert : Bool) :
    (e.select around keys slot insert).box.Pointed := by
  unfold EditBox.select
  split
  · exact h
  · split
    · split
      · exact pointed_of_no_buckets rfl
      · exact h
    · exact h.commit _ _

theorem Pointed.leave (h : e.Pointed) : (e.leave keys).box.Pointed := by
  unfold EditBox.leave
  split
  · split
    · exact pointed_of_no_buckets rfl
    · exact h
  · exact h

theorem Pointed.onEnter (h : e.Pointed) (shift : Bool) :
    (e.onEnter around keys shift).box.Pointed := by
  unfold EditBox.onEnter
  split
  · unfold commitFreeText
    split
    · exact pointed_of_no_buckets rfl
    · exact h
  · split
    · dsimp only
      split
      · exact h.select _ _
      · exact h.select _ _
    · exact h.leave

theorem Pointed.onBackspace (h : e.Pointed) (p : KeyPress) :
    (e.onBackspace keys p).box.Pointed := by
  unfold EditBox.onBackspace
  split
  · exact h
  · split
    · exact pointed_of_no_buckets rfl
    · exact h

theorem Pointed.onEscape (h : e.Pointed) : (e.onEscape keys).box.Pointed := by
  unfold EditBox.onEscape
  split
  · exact h
  · split
    · exact h
    · exact pointed_of_no_buckets rfl

theorem Pointed.react (h : e.Pointed) (p : KeyPress) : (e.react around keys p).box.Pointed := by
  unfold EditBox.react
  cases p.key with
  | arrowLeft => dsimp only; split <;> exact h
  | arrowRight => dsimp only; split <;> exact h
  | arrowUp => exact h.stepHighlight false
  | arrowDown => exact h.stepHighlight true
  | pageUp => exact h.pageHighlight false
  | pageDown => exact h.pageHighlight true
  | home => exact h.jumpHighlight false
  | finish => exact h.jumpHighlight true
  | enter => exact h.onEnter p.shift
  | tab => exact h.onEnter p.shift
  | backspace =>
      dsimp only
      split
      · exact h.onBackspace p
      · exact h
  | escape => exact h.onEscape

/-! ### All that is done to a box -/

theorem Pointed.key (h : e.Pointed) (p : KeyPress) : (e.key around keys p).box.Pointed := by
  have hcleared : Pointed { e with error := none, outcome := none } := h.congr rfl rfl rfl
  unfold EditBox.key
  dsimp only
  have hreact : Pointed (EditBox.react _ around keys p).box := hcleared.react p
  split
  · exact hreact.congr rfl rfl rfl
  · exact hreact

/-- A text that is typed leaves the highlight on a slot, wherever it was. -/
theorem pointed_typeText (e : EditBox) (around : Surroundings) (keys : KeySupply) (text : String) :
    (e.typeText around keys text).box.Pointed := by
  unfold typeText
  dsimp only
  split
  · exact pointed_settleHighlight _
  · split
    · exact (pointed_settleHighlight _).takeBracket _
    · exact pointed_settleHighlight _

theorem Pointed.takeAnswer (h : e.Pointed) (c : Config) (a : LookupAnswer) :
    (e.takeAnswer c a).1.Pointed := by
  unfold EditBox.takeAnswer
  split
  · split
    · exact pointed_settleHighlight _
    · exact h
  · exact h

/-! ### What enter does -/

theorem answer_leave_eq_ignored_iff : (e.leave keys).answer = .ignored ↔ e.isEditing = false := by
  unfold leave
  split
  · rename_i hediting
    split <;> simp [hediting]
  · rename_i hediting
    simpa using hediting

/-- **Enter is left to the owner only by a trailing box that has nothing highlighted**, if the text
is not marked as free text. -/
theorem answer_onEnter_eq_ignored_iff (hplain : e.isQuoted = false) (shift : Bool) :
    (e.onEnter around keys shift).answer = .ignored ↔
      e.isEditing = false ∧ (e.buckets = [] ∨ e.highlighted = none) := by
  unfold onEnter
  rw [if_neg (by rw [show freeTextMark.toList.isPrefixOf e.text.toList = false from hplain]; simp)]
  split
  · rename_i hbuckets hslot
    rw [hbuckets, hslot]
    dsimp only
    split
    · simp
    · rename_i hused
      exact iff_of_false hused (by simp)
  · rename_i hnothing
    rw [answer_leave_eq_ignored_iff, iff_self_and]
    intro _
    cases hbuckets : e.buckets with
    | nil => exact Or.inl rfl
    | cons b rest =>
        refine Or.inr ?_
        cases hslot : e.highlighted with
        | none => rfl
        | some slot => exact absurd hslot (hnothing b rest slot hbuckets)

/-- How a key ends is not changed by what is noted of it. -/
theorem answer_key (e : EditBox) (around : Surroundings) (keys : KeySupply) (p : KeyPress) :
    (e.key around keys p).answer =
      (react { e with error := none, outcome := none } around keys p).answer := by
  unfold key
  dsimp only
  split <;> rfl

/-- **In a box with a text that is not marked, enter is left to the owner exactly if no matcher is
edited and nothing is offered.** -/
theorem Pointed.answer_enter_eq_ignored_iff (h : e.Pointed) (htext : e.text.isEmpty = false)
    (hplain : e.isQuoted = false) {p : KeyPress} (hkey : p.key = .enter) :
    (e.key around keys p).answer = .ignored ↔ e.matcher = none ∧ e.buckets = [] := by
  rw [answer_key, react_of_confirming _ around keys (Or.inl hkey),
    answer_onEnter_eq_ignored_iff (e := { e with error := none, outcome := none }) hplain]
  show e.matcher.isSome = false ∧ (e.buckets = [] ∨ e.highlighted = none) ↔ _
  rw [Option.isSome_eq_false_iff, Option.isNone_iff_eq_none]
  refine and_congr_right fun _ => or_iff_left_of_imp fun hnone => ?_
  by_cases hbuckets : e.buckets = []
  · exact hbuckets
  · obtain ⟨slot, hslot, -⟩ := h htext (Buckets.total_pos_iff.mpr hbuckets)
    exact absurd (hnone.symm.trans hslot) (by simp)

end QueryBar.EditBox
