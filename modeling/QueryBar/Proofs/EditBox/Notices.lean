/-
What a box may want of its owner in one turn.

Whatever is done to a box, it goes on editing the matcher it edits, and among its notices
there is at most one wish, something about the row that the owner is to change.  The others
are asides, given before it: that the edited matcher has been touched, and that the owner was
asked about a candidate.

A matcher that is wished into the row either replaces the edited one under the same key or
has the next key of the supply.  Nothing was said against it, unless it is a bracket or a free
text, which the owner need not have been asked about.
-/
import QueryBar.Proofs.EditBox.Courses

namespace QueryBar

/-- The notice says something, but the owner is to do nothing about the row. -/
def Notice.isAside : Notice → Bool
  | .consulted _ _ | .changing => true
  | _ => false

/-- Nothing was said against a matcher that is to come into the row, or it is of a kind that
nothing is said against. -/
inductive Surroundings.Clears (around : Surroundings) (m : Matcher) (inserting : Bool) : Prop
  | bracket (key : String) (b : Bracket) (operator : Operator) (h : m = .bracket key b operator)
  | freeText (key text : String) (h : m = .freeText key text)
  | suggestion (s : Suggestion)
      (comparison : (Choice.suggestion s).objection? around.config m = none)
      (source : m.source = s.source) (owner : around.objection? m inserting = none)

/-- What is known of a matcher that a notice of a box wishes into the row, where the box edits the
matcher `held`. -/
def Notice.Grounded (held : Option Matcher) (around : Surroundings) (keys after : KeySupply) :
    Notice → Prop
  | .changed (some m) =>
    around.Clears m false ∧
      match held with
      | some old => m.key = old.key
      | none => m.key = keys.next ∧ after = keys.advance
  | .insert m => around.Clears m true ∧ m.key = keys.next ∧ after = keys.advance
  | _ => True

/-- What every turn of a box that edits the matcher `held` is like. -/
structure Turn.Orderly {α : Type} (turn : Turn α) (held : Option Matcher) (around : Surroundings)
    (keys : KeySupply) : Prop where
  matcher : turn.box.matcher = held
  supply : turn.keys = keys ∨ turn.keys = keys.advance
  notices : ∃ asides : List Notice, ∃ wish : Option Notice,
    turn.notices = asides ++ wish.toList ∧ (∀ n ∈ asides, n.isAside = true) ∧
      ∀ n ∈ wish, n.Grounded held around keys turn.keys

namespace Turn

variable {α β : Type} {turn : Turn α} {held : Option Matcher} {around : Surroundings}
  {keys : KeySupply}

theorem orderly_of_silent (hheld : turn.box.matcher = held)
    (hkeys : turn.keys = keys ∨ turn.keys = keys.advance) (hnotices : turn.notices = []) :
    turn.Orderly held around keys where
  matcher := hheld
  supply := hkeys
  notices := ⟨[], none, hnotices, by simp, by simp⟩

/-- A turn with a single wish, and perhaps a question before it. -/
theorem orderly_of_wish {n : Notice} (asides : List Notice) (hheld : turn.box.matcher = held)
    (hkeys : turn.keys = keys ∨ turn.keys = keys.advance) (hnotices : turn.notices = asides ++ [n])
    (hasides : ∀ n ∈ asides, n.isAside = true) (hn : n.Grounded held around keys turn.keys) :
    turn.Orderly held around keys where
  matcher := hheld
  supply := hkeys
  notices := by
    refine ⟨asides, some n, hnotices, hasides, ?_⟩
    intro n' hn'
    obtain rfl := Option.mem_some.mp hn'
    exact hn

/-- Asides may be given before all others. -/
theorem Orderly.prepend {turn' : Turn β} {asides : List Notice}
    (h : turn.Orderly held around keys) (hasides : ∀ n ∈ asides, n.isAside = true)
    (hheld : turn'.box.matcher = turn.box.matcher) (hkeys : turn'.keys = turn.keys)
    (hnotices : turn'.notices = asides ++ turn.notices) : turn'.Orderly held around keys where
  matcher := hheld.trans h.matcher
  supply := hkeys ▸ h.supply
  notices := by
    obtain ⟨more, wish, hmore, hall, hwish⟩ := h.notices
    refine ⟨asides ++ more, wish, ?_, ?_, ?_⟩
    · rw [hnotices, hmore, List.append_assoc]
    · intro n hn
      rcases List.mem_append.mp hn with hn | hn
      · exact hasides n hn
      · exact hall n hn
    · rw [hkeys]
      exact hwish

end Turn

namespace EditBox

open Turn

variable (e : EditBox) (around : Surroundings) (keys : KeySupply)

theorem matcher_reopen (mode : OperatorMode) : (e.reopen mode).matcher = e.matcher := by
  unfold reopen
  dsimp only
  split
  · rename_i m hm
    exact hm.symm ▸ rfl
  · rfl

/-! ### The keys of candidates -/

theorem keys_takeKey (insert : Bool) :
    (e.takeKey insert keys).2 = keys ∨ (e.takeKey insert keys).2 = keys.advance := by
  unfold takeKey
  split
  · exact Or.inl rfl
  · exact Or.inr rfl

/-- Only what replaces the edited matcher has no key of its own. -/
theorem takeKey_insert : e.takeKey true keys = (keys.next, keys.advance) := by
  unfold takeKey
  split
  · contradiction
  · rfl

theorem takeKey_replacing :
    match e.matcher with
    | some old => (e.takeKey false keys).1 = old.key
    | none => (e.takeKey false keys).1 = keys.next ∧ (e.takeKey false keys).2 = keys.advance := by
  cases h : e.matcher <;> simp [takeKey, h]

theorem key_become (c : Config) (choice : Choice) (insert : Bool) :
    (e.become c keys choice insert).key = (e.takeKey insert keys).1 := by
  cases choice <;> rfl

theorem clears_become {insert : Bool} {choice : Choice}
    (hchoice : choice.objection? around.config
      (e.become around.config keys choice insert) = none)
    (howner : around.objection? (e.become around.config keys choice insert) insert = none) :
    around.Clears (e.become around.config keys choice insert) insert := by
  cases choice with
  | bracket b => exact .bracket _ b (e.operatorFor b) rfl
  | suggestion s => exact .suggestion s hchoice rfl howner

/-! ### Turns -/

variable {e around keys} {asked : Bool} {turn : Turn Reaction}

theorem grounded_of_turns {n : Notice} {held : Option Matcher} {after : KeySupply}
    (h : e.Turns n) : n.Grounded held around keys after := by
  cases n with
  | changed m => exact h.elim
  | insert m => exact h.elim
  | _ => trivial

/-- **A turn has at most one wish, and only a cleared matcher is wished into the row.** -/
theorem Course.orderly (h : Course e around keys asked turn) :
    turn.Orderly e.matcher around keys := by
  have hconsulted : ∀ m insert, ∀ n ∈ [Notice.consulted m insert], n.isAside = true := by
    intro m insert n hn
    rw [List.mem_singleton.mp hn]
    rfl
  have hreplacing := e.takeKey_replacing keys
  cases h with
  | quiet hbox => exact orderly_of_silent hbox.matcher (Or.inl rfl) rfl
  | emptied hbox => exact orderly_of_silent hbox.matcher (Or.inl rfl) rfl
  | turned hbox hn _ =>
      exact orderly_of_wish [] hbox.matcher (Or.inl rfl) rfl (by simp)
        (grounded_of_turns hn)
  | cleared hbox =>
      exact orderly_of_wish [] hbox.matcher (Or.inl rfl) rfl (by simp) trivial
  | function hbox _ _ _ =>
      exact orderly_of_wish [] hbox.matcher (Or.inl rfl) rfl (by simp) trivial
  | refused hbox => exact orderly_of_silent hbox.matcher (e.keys_takeKey keys _) rfl
  | objected hbox =>
      exact ⟨hbox.matcher, e.keys_takeKey keys _, [_], none, rfl, hconsulted _ _, by simp⟩
  | committed hbox hchoice howner _ =>
      refine orderly_of_wish [_] hbox.matcher (e.keys_takeKey keys _) rfl
        (hconsulted _ _) ⟨clears_become e around keys hchoice howner, ?_⟩
      rw [key_become]
      exact hreplacing
  | inserted hbox hchoice howner _ =>
      refine orderly_of_wish [_] hbox.matcher (e.keys_takeKey keys _) rfl
        (hconsulted _ _) ⟨clears_become e around keys hchoice howner, ?_⟩
      rw [key_become, takeKey_insert]
      exact ⟨rfl, rfl⟩
  | bracketed hbox _ _ =>
      exact orderly_of_wish [] (hbox.matcher.trans (e.matcher_reopen _)) (Or.inr rfl)
        rfl (by simp) ⟨.bracket _ _ _ rfl, rfl, rfl⟩
  | captured hbox _ =>
      exact orderly_of_wish [] hbox.matcher (e.keys_takeKey keys _) rfl (by simp)
        ⟨.freeText _ _ rfl, hreplacing⟩

/-- **What a text comes to is orderly, too.** -/
theorem orderly_typeText (e : EditBox) (around : Surroundings) (keys : KeySupply)
    (text : String) : (e.typeText around keys text).Orderly e.matcher around keys := by
  have hasides : ∀ n ∈ (if !e.touched && e.isEditing && text != e.text then [Notice.changing]
      else []), n.isAside = true := by
    intro n hn
    split at hn
    · rw [List.mem_singleton.mp hn]
      rfl
    · simp at hn
  unfold typeText
  dsimp only
  split
  · exact ⟨(resembles_settleHighlight _).matcher, Or.inl rfl, _, none, (List.append_nil _).symm,
      hasides, by simp⟩
  · split
    · rename_i b _
      generalize hbox : EditBox.settleHighlight _ = settled
      have hmatcher : settled.matcher = e.matcher := by
        rw [← hbox]
        exact (resembles_settleHighlight _).matcher
      have hbracket := (settled.course_takeBracket around keys b).orderly
      rw [hmatcher] at hbracket
      exact hbracket.prepend hasides rfl rfl rfl
    · exact ⟨(resembles_settleHighlight _).matcher, Or.inl rfl, _, none, (List.append_nil _).symm,
        hasides, by simp⟩

theorem orderly_focus (e : EditBox) (around : Surroundings) (keys : KeySupply) :
    (e.focus keys).Orderly e.matcher around keys :=
  orderly_of_wish [] rfl (Or.inl rfl) rfl (by simp) trivial

end EditBox

end QueryBar
