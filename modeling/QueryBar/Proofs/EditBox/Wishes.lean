/-
What a box can wish into the row.

A matcher that is wished into the row is a bracket, a piece of free text, or what is on offer on
some slot.  Of a suggestion the box takes over source, value and text as they are; only operator
and comparison are its own.
-/
import QueryBar.Proofs.Buckets.Shown
import QueryBar.Proofs.EditBox.Typing

namespace QueryBar.EditBox

/-- What a matcher that the box wishes into the row can be. -/
inductive Wishes (e : EditBox) (m : Matcher) : Prop
  | bracket (key : String) (b : Bracket) (operator : Operator) (h : m = .bracket key b operator)
  | freeText (key text : String) (h : m = .freeText key text)
  /-- The matcher stands for what is offered, which is no function. -/
  | offered (o : Suggestion) (hshown : e.buckets.Shows o) (hplain : o.isFunction = false)
      (hsource : m.source = o.source) (hvalue : m.value = o.value) (htext : m.text = o.text)

variable {e e' : EditBox} {around : Surroundings} {keys : KeySupply} {n : Notice} {m : Matcher}

/-- Only what is offered matters. -/
theorem Wishes.congr (h : e'.Wishes m) (hbuckets : e'.buckets = e.buckets) : e.Wishes m := by
  cases h with
  | bracket key b operator h => exact .bracket key b operator h
  | freeText key text h => exact .freeText key text h
  | offered o hshown hplain hsource hvalue htext =>
      exact .offered o (hbuckets ▸ hshown) hplain hsource hvalue htext

/-- What is committed is the candidate. -/
theorem eq_become_of_commit {choice : Choice} {insert : Bool}
    (hn : n ∈ (e.commit around keys choice insert).notices) (hm : n.incoming? = some m) :
    m = e.become around.config keys choice insert := by
  unfold commit at hn
  dsimp only at hn
  split at hn
  · contradiction
  · split at hn
    · rw [List.mem_singleton.mp hn] at hm
      contradiction
    · split at hn
      · rcases List.mem_cons.mp hn with rfl | hn
        · contradiction
        · rw [List.mem_singleton.mp hn] at hm
          exact (Option.some.inj hm).symm
      · rcases List.mem_cons.mp hn with rfl | hn
        · contradiction
        · rw [List.mem_singleton.mp hn] at hm
          exact (Option.some.inj hm).symm

/-- A bracket is all that comes of a bracket. -/
theorem eq_bracket_of_takeBracket {b : Bracket} (hn : n ∈ (e.takeBracket around keys b).notices)
    (hm : n.incoming? = some m) : ∃ key operator, m = .bracket key b operator := by
  unfold takeBracket at hn
  split at hn
  · rw [List.mem_singleton.mp hn] at hm
    exact ⟨_, _, (Option.some.inj hm).symm⟩
  · exact ⟨_, _, eq_become_of_commit hn hm⟩

theorem wishes_select {slot : Nat} {insert : Bool}
    (hn : n ∈ (e.select around keys slot insert).notices) (hm : n.incoming? = some m) :
    e.Wishes m := by
  unfold select at hn
  split at hn
  · contradiction
  · rename_i option hoption
    split at hn
    · split at hn
      · rw [List.mem_singleton.mp hn] at hm
        contradiction
      · contradiction
    · rename_i hplain
      have hcandidate := eq_become_of_commit hn hm
      exact .offered option (Buckets.shows_of_get? hoption) (Bool.eq_false_iff.mpr hplain)
        (congrArg (·.source) hcandidate) (congrArg (·.value) hcandidate)
        (congrArg (·.text) hcandidate)

theorem wishes_commitFreeText (hn : n ∈ (e.commitFreeText keys).notices)
    (hm : n.incoming? = some m) : e.Wishes m := by
  unfold commitFreeText at hn
  split at hn
  · rw [List.mem_singleton.mp hn] at hm
    obtain rfl := Option.some.inj hm
    exact .freeText _ _ rfl
  · contradiction

theorem incoming_leave (hn : n ∈ (e.leave keys).notices) : n.incoming? = none := by
  unfold leave at hn
  split at hn
  · split at hn <;> rw [List.mem_singleton.mp hn] <;> rfl
  · contradiction

theorem wishes_onEnter {shift : Bool} (hn : n ∈ (e.onEnter around keys shift).notices)
    (hm : n.incoming? = some m) : e.Wishes m := by
  unfold onEnter at hn
  split at hn
  · exact wishes_commitFreeText hn hm
  · split at hn
    · dsimp only at hn
      split at hn <;> exact wishes_select hn hm
    · rw [incoming_leave hn] at hm
      contradiction

/-- Keys other than those that confirm wish nothing into the row. -/
theorem wishes_react {p : KeyPress} (hn : n ∈ (e.react around keys p).notices)
    (hm : n.incoming? = some m) : e.Wishes m := by
  have hnever : n.incoming? = none → e.Wishes m := by
    intro hnone
    rw [hnone] at hm
    contradiction
  unfold react at hn
  cases hkey : p.key with
  | enter =>
      rw [hkey] at hn
      exact wishes_onEnter hn hm
  | tab =>
      rw [hkey] at hn
      exact wishes_onEnter hn hm
  | backspace =>
      rw [hkey] at hn
      dsimp only at hn
      split at hn
      · refine hnever ?_
        unfold onBackspace at hn
        split at hn
        · rw [List.mem_singleton.mp hn]
          split <;> rfl
        · split at hn
          · rw [List.mem_singleton.mp hn]
            rfl
          · contradiction
      · contradiction
  | escape =>
      rw [hkey] at hn
      refine hnever ?_
      dsimp only at hn
      unfold onEscape at hn
      split at hn
      · rw [List.mem_singleton.mp hn]
        rfl
      · split at hn <;> contradiction
  | arrowLeft =>
      rw [hkey] at hn
      dsimp only at hn
      split at hn
      · rw [List.mem_singleton.mp hn] at hm
        contradiction
      · contradiction
  | arrowRight =>
      rw [hkey] at hn
      dsimp only at hn
      split at hn
      · rw [List.mem_singleton.mp hn] at hm
        contradiction
      · contradiction
  | _ =>
      rw [hkey] at hn
      contradiction

/-- **What a key wishes into the row** is on offer, unless it is free text. -/
theorem wishes_key {p : KeyPress} (hn : n ∈ (e.key around keys p).notices)
    (hm : n.incoming? = some m) : e.Wishes m := by
  have hreact : n ∈ ({ e with error := none, outcome := none }.react around keys p).notices := by
    unfold key at hn
    dsimp only at hn
    split at hn <;> exact hn
  exact (wishes_react hreact hm).congr rfl

/-- **A text wishes nothing into the row but a bracket.** -/
theorem wishes_typeText {text : String} (hn : n ∈ (e.typeText around keys text).notices)
    (hm : n.incoming? = some m) : e.Wishes m := by
  cases hbracket : (Tokens.ofText around.config around.function text).bracket with
  | none =>
      obtain ⟨-, -, hnotices⟩ := typeText_of_no_bracket e around keys hbracket
      rw [hnotices n hn] at hm
      contradiction
  | some b =>
      obtain ⟨typed, asides, -, -, hasides, -, -, hnotices⟩ :=
        typeText_of_bracket e around keys hbracket
      rw [hnotices] at hn
      rcases List.mem_append.mp hn with haside | htold
      · rw [hasides n haside] at hm
        contradiction
      · obtain ⟨key, operator, rfl⟩ := eq_bracket_of_takeBracket htold hm
        exact .bracket key b operator rfl

end QueryBar.EditBox
