/-
The text of an open matcher, typed once more.

A matcher is shown with its operator wherever there are operators and it is not the first.  Whether
a word at the front is read as an operator also depends on the active function.  Under a function
that forbids operators the two differ: the word is taken for what is searched for, and the
comparison and the text with it (`reopened_reads_back_iff`).
-/
import QueryBar.Proofs.Bar.Selection
import QueryBar.Proofs.Bar.Typing
import QueryBar.Proofs.EditBox.Prefill

namespace QueryBar

/-! ### Whether operators are shown, and read -/

theorem EditBox.prefillOperator?_eq_none_iff {m : Matcher} {first : Bool} {mode : OperatorMode} :
    prefillOperator? m first mode = none ↔ first = true ∨ mode = .simple ∨ m.operator = .none := by
  unfold prefillOperator?
  split
  · rename_i hhidden
    refine iff_of_true rfl ?_
    simpa [or_assoc] using hhidden
  · rename_i hshown
    refine iff_of_false (by simp) ?_
    simpa [or_assoc] using hshown

/-- An operator that is shown is read unless the function forbids operators. -/
theorem EditBox.prefillOperator?_readable_iff (c : Config) (f : Option QueryFunction) (m : Matcher)
    (first : Bool) :
    prefillOperator? m first c.mode = none ∨ c.readsOperators f = true ↔
      first = true ∨ c.mode = .simple ∨ m.operator = .none ∨
        f.all (!·.noOperators) = true := by
  unfold Config.readsOperators
  rw [prefillOperator?_eq_none_iff, Bool.and_eq_true, bne_iff_ne]
  tauto

namespace Bar

variable {b : Bar} {i : Nat} {m : Matcher}

/-! ### Opening a matcher -/

/-- The matcher at the place is the one that is edited. -/
structure HasOpen (b : Bar) (i : Nat) : Prop where
  active : b.active = some i
  held : b.box.matcher.map (·.key) = b.matchers[i]?.map (·.key)

theorem config_select (b : Bar) (i : Nat) : (b.select i).config = b.config :=
  (follows_select b i).config

theorem function_select (b : Bar) (i : Nat) : (b.select i).function = b.function := by
  unfold select openAt
  dsimp only
  split <;> rfl

/-- **A matcher that is selected is opened**, unless it is open already. -/
theorem box_select (hm : b.matchers[i]? = some m) :
    (b.HasOpen i → (b.select i).box = b.box) ∧
      (¬ b.HasOpen i → (b.select i).box =
        .editing m (b.isFirst i) b.config.mode b.allowsFreeText b.generation.advance) := by
  have htarget : ((some i).bind fun i => b.matchers[i]?.map fun m => (i, m)) = some (i, m) := by
    rw [Option.bind_some, hm, Option.map_some]
  unfold select openAt
  dsimp only
  rw [htarget]
  dsimp only [Option.map_some]
  constructor
  · rintro ⟨hactive, hheld⟩
    rw [hm] at hheld
    rw [if_pos ⟨hactive.symm, hheld.symm⟩]
  · intro hclosed
    rw [if_neg]
    · rfl
    · rintro ⟨hactive, hheld⟩
      exact hclosed ⟨hactive.symm, by rw [hm]; exact hheld.symm⟩

/-! ### Typing what was shown -/

/-- **The box shows a comparison and searches for a text exactly if both are read off what is
typed.** -/
theorem box_input_reads_iff (b : Bar) (text comparison search : String) :
    let box := (b.input text).1.box
    let tokens := Tokens.ofText b.config b.function text
    box.comparison = some comparison ∧ box.matchText = some search ↔
      tokens.comparison = some comparison ∧ tokens.remainder = search := by
  intro box tokens
  cases hq : b.inquiry? text with
  | some q =>
      obtain ⟨-, hshown⟩ := input_of_inquiry hq
      obtain ⟨-, -, rfl⟩ := of_inquiry?_eq_some hq
      rw [hshown.comparison, hshown.matchText, Option.some_inj]
  | none =>
      obtain ⟨-, hcloses⟩ := input_of_no_inquiry hq
      rw [hcloses.matchText]
      refine iff_of_false (by simp) fun hread => ?_
      obtain ⟨hplain, hbracket⟩ := Tokens.of_comparison hread.1
      have hblank := of_inquiry?_eq_none hq hbracket
      exact absurd (hblank.symm.trans hplain) (by simp)

/-- **What is shown of a matcher is read again as its comparison and its text exactly if no operator
is shown, or the active function does not forbid operators.**  The text of the matcher begins with
a letter or a digit, so that it never goes with the comparison. -/
theorem box_input_prefillText_iff (hc : b.config.Customary) (hspelled : m.Spelled b.config)
    (hword : m.text.toList.head?.any Text.isAlphanumeric = true) (first : Bool) :
    let box := (b.input (EditBox.prefillText m first b.config.mode)).1.box
    box.comparison = some m.comparison ∧ box.matchText = some m.text ↔
      first = true ∨ b.config.mode = .simple ∨ m.operator = .none ∨
        b.function.all (!·.noOperators) = true := by
  obtain ⟨x, rest, hx, htext⟩ : ∃ x rest, Text.isAlphanumeric x = true ∧
      m.text.toList = x :: rest := by
    cases htext : m.text.toList with
    | nil => simp [htext] at hword
    | cons x rest => exact ⟨x, rest, by simpa [htext] using hword, rfl⟩
  have hmark : x ∉ comparisonMarks := fun hmark => by
    rw [Tokens.isAlphanumeric_of_mark hmark] at hx
    contradiction
  have hsets : b.config.SetsOff m.comparison m.text.toList := by
    rw [htext]
    exact hc.setsOff hspelled.comparison hmark rest
  have hreads := EditBox.ofText_prefillText_iff hc hspelled b.function first
  rw [and_iff_left hsets, EditBox.prefillOperator?_readable_iff] at hreads
  exact (box_input_reads_iff b _ m.comparison m.text).trans hreads

/-- **An opened matcher is shown, and what is shown is read again as its comparison and its text
exactly if no operator is shown or the active function does not forbid operators.** -/
theorem reopened_reads_back_iff (hc : b.config.Customary) (hm : b.matchers[i]? = some m)
    (hspelled : m.Spelled b.config) (hword : m.text.toList.head?.any Text.isAlphanumeric = true) :
    let opened := b.select i
    (b.HasOpen i → opened.box = b.box) ∧
    (¬ b.HasOpen i → opened.box.matcher = some m ∧
      opened.box.text = EditBox.prefillText m (b.isFirst i) b.config.mode) ∧
    ∀ first,
      let box := (opened.input (EditBox.prefillText m first b.config.mode)).1.box
      box.comparison = some m.comparison ∧ box.matchText = some m.text ↔
        first = true ∨ b.config.mode = .simple ∨ m.operator = .none ∨
          b.function.all (!·.noOperators) = true := by
  obtain ⟨hkept, hopened⟩ := box_select hm
  have hconfig := config_select b i
  have hfunction := function_select b i
  refine ⟨hkept, fun hclosed => ?_, ?_⟩
  · rw [hopened hclosed]
    exact ⟨rfl, rfl⟩
  · rw [← hconfig, ← hfunction]
    rw [← hconfig] at hc hspelled
    exact fun first => box_input_prefillText_iff hc hspelled hword first

/-- Colours that are compared as texts are, and a function that forbids operators. -/
def sought : Config :=
  { Config.ofSources [{
      name := "colour", title := "Colours", comparisons := stringComparisons
      definitions := [.list { supply := .items [.text "red", .text "green"] }] }]
    with functions := [{ name := "Find", optional := ["colour"], noOperators := true }] }

theorem customary_sought : sought.Customary where
  andSymbol := rfl
  orSymbol := rfl
  comparisons := Or.inl fun _ => Iff.rfl

/-- As long as the function is not active, the second of two colours is read again. -/
theorem reopened_reads_back_iff_unsought :
    let b := (Bar.new sought 0).withMatchers [colour "a" "red", colour "b" "green"]
    let box := ((b.select 1).input "and =green").1.box
    b.config.Customary ∧ b.matchers[1]? = some (colour "b" "green") ∧
      (colour "b" "green").Spelled b.config ∧
      (colour "b" "green").text.toList.head?.any Text.isAlphanumeric = true ∧
      box.comparison = some "=" ∧ box.matchText = some "green" := by
  intro b box
  have hspelled : (colour "b" "green").Spelled b.config :=
    ⟨by decide +kernel, by decide +kernel, by decide +kernel⟩
  have hword : (colour "b" "green").text.toList.head?.any Text.isAlphanumeric = true := by
    decide +kernel
  have hshown : EditBox.prefillText (colour "b" "green") false b.config.mode = "and =green" := by
    decide +kernel
  have hreads := (reopened_reads_back_iff (b := b) (i := 1) customary_sought rfl hspelled hword).2.2
    false
  rw [hshown] at hreads
  exact ⟨customary_sought, rfl, hspelled, hword, hreads.mpr (by decide +kernel)⟩

/-- Two colours that were chosen under the function.  The second is joined by `and`, as any matcher
is for which no operator is typed. -/
def soughtColours : Bar :=
  (Bar.new sought 0).run
    [.input "fi", .key { key := .enter }, .input "red", .key { key := .enter }, .input "green",
      .key { key := .enter }]

/-- **Under a function that forbids operators the word that is shown in front of a matcher is
searched for**, and the matcher loses its comparison. -/
theorem reopened_misread_sought :
    let opened := soughtColours.select 1
    let box := (opened.input opened.box.text).1.box
    soughtColours.Reachable ∧ soughtColours.config.Customary ∧
      opened.box.matcher = soughtColours.matchers[1]? ∧
      opened.box.matcher.map (fun m => (m.comparison, m.text)) = some ("=", "green") ∧
      opened.box.text = "and =green" ∧
      box.comparison = none ∧ box.matchText = some "and =green" := by
  intro opened box
  exact ⟨Reachable.run (.new sought 0) _, customary_sought, by decide +kernel, by decide +kernel,
    by decide +kernel, by decide +kernel, by decide +kernel⟩

end Bar

end QueryBar
