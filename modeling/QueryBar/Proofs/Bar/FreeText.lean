/-
Free text, typed and confirmed.

A text is read as free text if the mark is the first of it that is not blank.  It is left alone
until enter comes, which commits all that follows the mark, at the end of the row or in place of the
matcher that is edited.  But enter only looks for the mark at the very front of the text.  If
there is a blank before it, enter does what it does with any other text for which nothing is
offered (`free_text_captured_iff`).
-/
import QueryBar.Proofs.Bar.Enter
import QueryBar.Proofs.Bar.OnePlace

namespace QueryBar

namespace EditBox

variable {e : EditBox} {around : Surroundings} {keys : KeySupply} {text : String} {p : KeyPress}

/-- Only a bracket draws a key while it is typed. -/
theorem keys_typeText_of_no_bracket (e : EditBox) (around : Surroundings) (keys : KeySupply)
    (h : (Tokens.ofText around.config around.function text).bracket = none) :
    (e.typeText around keys text).keys = keys := by
  unfold typeText
  dsimp only
  split
  · rfl
  · rw [h]

/-- Where nothing is offered and no free text is marked, there is nothing to commit. -/
theorem answer_key_ne_committed (hplain : e.isQuoted = false) (hbuckets : e.buckets = [])
    (hkey : p.key = .enter ∨ p.key = .tab) : (e.key around keys p).answer ≠ .committed := by
  let cleared : EditBox := { e with error := none, outcome := none }
  have hleft : cleared.onEnter around keys p.shift = cleared.leave keys := by
    unfold onEnter
    rw [if_neg (by rw [show freeTextMark.toList.isPrefixOf _ = false from hplain]; simp),
      show cleared.buckets = [] from hbuckets]
  rw [answer_key, react_of_confirming cleared around keys hkey, hleft]
  exact cleared.answer_leave keys

end EditBox

namespace Bar

variable {b : Bar} {text : String} {p : KeyPress} {m : Matcher}

/-- What is typed is captured by the key as free text, without anything being looked up or offered
for it. -/
structure Captures (b : Bar) (p : KeyPress) (text : String) : Prop where
  requests : (b.input text).2 = []
  offers : (b.input text).1.box.buckets = []
  answer : ((b.input text).1.key p).2 = .edit .committed
  /-- Where nothing is edited, one free text joins the end of the row. -/
  joins : b.box.matcher = none → ((b.input text).1.key p).1.matchers =
    b.matchers ++ [.freeText b.keys.next (Tokens.ofText b.config b.function text).remainder]
  /-- Otherwise it takes the place of the edited matcher, under its key. -/
  replaces : ∀ old, b.box.matcher = some old → ∃ i, b.placeOf? old.key = some i ∧
    ((b.input text).1.key p).1.matchers =
      b.matchers.set i (.freeText old.key (Tokens.ofText b.config b.function text).remainder)

/-- What replaces the edited matcher finds it in the row. -/
theorem Captures.present (h : b.Captures p text) (hheld : b.box.matcher = some m) :
    m.key ∈ b.matchers.map (·.key) := by
  obtain ⟨i, hplace, -⟩ := h.replaces m hheld
  exact exists_placeOf?_iff.mp ⟨i, hplace⟩

/-! ### Typing it -/

/-- **Free text is only noted in the box.** -/
theorem input_of_freeText (h : (Tokens.ofText b.config b.function text).freeText = true) :
    let typed := (b.input text).1
    (b.input text).2 = [] ∧ b.Alike typed ∧ typed.box.text = text ∧ typed.box.buckets = [] ∧
      typed.box.allowFreeText = b.box.allowFreeText := by
  intro typed
  have hbracket := Tokens.bracket_of_freeText h
  have hquiet : b.inquiry? text = none := by
    refine if_pos ?_
    rw [show (Tokens.ofText b.surroundings.config b.surroundings.function text).freeText = true
      from h]
    rfl
  obtain ⟨hrequests, hcloses⟩ := input_of_no_inquiry hquiet
  obtain ⟨hretypes, -, hnotices⟩ := b.box.typeText_of_no_bracket b.surroundings b.keys hbracket
  have hkeys := b.box.keys_typeText_of_no_bracket b.surroundings b.keys hbracket
  have hplace := b.box.samePlace_typeText b.surroundings b.keys text
  have hbox : typed.box = (b.box.typeText b.surroundings b.keys text).box :=
    box_foldl_heed_changing _ hnotices _
  have hasides : ∀ n ∈ (b.box.typeText b.surroundings b.keys text).notices, n.isAside = true := by
    intro n hn
    rw [hnotices n hn]
    rfl
  have htaken : b.Alike
      { b with
        box := (b.box.typeText b.surroundings b.keys text).box
        keys := (b.box.typeText b.surroundings b.keys text).keys } :=
    ⟨⟨rfl, hretypes.matcher⟩, rfl, hkeys, rfl⟩
  refine ⟨hrequests, htaken.trans (alike_foldl_heed hasides _ _), ?_, hcloses.buckets, ?_⟩
  · rw [hbox]
    exact hretypes.text
  · rw [hbox]
    exact hplace.allowFreeText

/-! ### Confirming it -/

/-- **A marked text is put into the row by enter**, where free text is allowed. -/
theorem key_of_quoted (hquoted : b.box.isQuoted = true) (hallowed : b.box.allowFreeText = true)
    (hkey : p.key = .enter ∨ p.key = .tab) :
    (b.key p).2 = .edit .committed ∧ (b.key p).1.matchers =
      b.rowWith (.freeText (b.box.takeKey false b.keys).1 b.box.literal) false := by
  obtain ⟨hanswer, hheld, hnotices⟩ :=
    EditBox.key_of_quoted b.surroundings b.keys hquoted hallowed hkey
  rw [key_of_used (by rw [hanswer]; simp), hanswer]
  exact ⟨rfl, matchers_takeTurn_of_wish hheld (List.forall_mem_nil _) hnotices rfl⟩

/-- **Free text is captured exactly if the mark is at the very front of it**, and the matcher that is
edited, if any, is still in the row. -/
theorem free_text_captured_iff (h : Reachable b)
    (hfree : (Tokens.ofText b.config b.function text).freeText = true)
    (hallowed : b.allowsFreeText = true) (hkey : p.key = .enter) :
    b.Captures p text ↔ freeTextMark.toList.isPrefixOf text.toList = true ∧
      ∀ old, b.box.matcher = some old → old.key ∈ b.matchers.map (·.key) := by
  obtain ⟨hrequests, halike, htext, hoffers, hallows⟩ := input_of_freeText hfree
  have hquoted : (b.input text).1.box.isQuoted = freeTextMark.toList.isPrefixOf text.toList := by
    unfold EditBox.isQuoted
    rw [htext]
  constructor
  · intro hcaptures
    refine ⟨?_, fun old => hcaptures.present⟩
    by_contra hplain
    rw [Bool.not_eq_true, ← hquoted] at hplain
    exact EditBox.answer_key_ne_committed hplain hoffers (Or.inl hkey)
      (key_of_edit hcaptures.answer).1
  · rintro ⟨hmark, hpresent⟩
    rw [(abreast_reachable h).freeText, hallowed] at hallows
    obtain ⟨hanswer, hrow⟩ := key_of_quoted (hquoted.trans hmark) hallows (Or.inl hkey)
    have hliteral : (Tokens.ofText b.config b.function text).remainder =
        (b.input text).1.box.literal := by
      unfold EditBox.literal
      rw [Tokens.ofText_of_mark hmark, htext]
    unfold rowWith placeOf? EditBox.takeKey at hrow
    rw [halike.held, halike.row, halike.keys] at hrow
    refine ⟨hrequests, hoffers, hanswer, fun hclosed => ?_, fun old hold => ?_⟩
    · rw [hclosed] at hrow
      rw [hrow, hliteral]
    · obtain ⟨i, hplace⟩ := exists_placeOf?_iff.mpr (hpresent old hold)
      unfold placeOf? at hplace
      rw [hold] at hrow
      dsimp only at hrow
      rw [hplace] at hrow
      refine ⟨i, hplace, ?_⟩
      rw [hrow, hliteral]
      rfl

/-- A bar with a row of two colours, in which free text is allowed. -/
def remarks : Bar :=
  (Bar.new
    { Config.ofSources [{ name := "colour", title := "Colours", comparisons := ["="] }] with
      allowFreeText := true }
    0).withMatchers [colour "a" "red", colour "b" "green"]

theorem reachable_remarks : Reachable remarks := .equip (.new ..) (.matchers _)

/-- Blanks and marks after the first mark belong to the text. -/
theorem free_text_captured_iff_remarks :
    let b := remarks.run [.select 1]
    let text := "\" not \"green\" "
    let p : KeyPress := { key := .enter, ctrl := true }
    b.Reachable ∧ (Tokens.ofText b.config b.function text).freeText = true ∧
      b.allowsFreeText = true ∧ p.key = .enter ∧ b.Captures p text ∧
      (Tokens.ofText b.config b.function text).remainder = " not \"green\" " := by
  intro b text p
  have hreachable : b.Reachable := reachable_remarks.run _
  have hfree : (Tokens.ofText b.config b.function text).freeText = true := by decide +kernel
  have hallowed : b.allowsFreeText = true := by decide +kernel
  have hmark : freeTextMark.toList.isPrefixOf text.toList = true := by decide +kernel
  have hpresent : ∀ old, b.box.matcher = some old → old.key ∈ b.matchers.map (·.key) := by
    intro old hold
    have hheld : b.box.matcher = some (colour "b" "green") := by decide +kernel
    obtain rfl := Option.some.inj (hold.symm.trans hheld)
    decide +kernel
  exact ⟨hreachable, hfree, hallowed, rfl,
    (free_text_captured_iff hreachable hfree hallowed rfl).mpr ⟨hmark, hpresent⟩,
    by decide +kernel⟩

/-- **With a blank in front free text is not captured**: enter hands the row out instead. -/
theorem free_text_missed_after_blank :
    let text := " \"hello"
    let p : KeyPress := { key := .enter }
    let typed := (remarks.input text).1
    remarks.Reachable ∧ remarks.allowsFreeText = true ∧
      (Tokens.ofText remarks.config remarks.function text).freeText = true ∧
      (Tokens.ofText remarks.config remarks.function text).remainder = "hello" ∧
      (typed.key p).2.concludes = true ∧ (typed.key p).1.matchers = [] ∧
      ¬ remarks.Captures p text := by
  intro text p typed
  have hconcludes : (typed.key p).2.concludes = true := by decide +kernel
  refine ⟨reachable_remarks, by decide +kernel, by decide +kernel, by decide +kernel, hconcludes,
    by decide +kernel, fun hcaptures => ?_⟩
  rw [hcaptures.answer] at hconcludes
  contradiction

/-- **Free text for a matcher that has gone from the row is reported as committed and lost.** -/
theorem free_text_lost_without_matcher :
    let b := remarks.run [.select 1, .sync [colour "a" "red", colour "c" "blue"]]
    let p : KeyPress := { key := .enter }
    let confirmed := (b.input "\"hello").1.key p
    b.Reachable ∧ b.allowsFreeText = true ∧ b.box.matcher = some (colour "b" "green") ∧
      (Tokens.ofText b.config b.function "\"hello").freeText = true ∧
      confirmed.2.staysInEdit = true ∧ confirmed.1.matchers = b.matchers ∧
      ¬ b.Captures p "\"hello" := by
  intro b p confirmed
  have hheld : b.box.matcher = some (colour "b" "green") := by decide +kernel
  refine ⟨reachable_remarks.run _, by decide +kernel, hheld, by decide +kernel, by decide +kernel,
    by decide +kernel, fun hcaptures => ?_⟩
  have hgone : "b" ∉ b.matchers.map (·.key) := by decide +kernel
  exact hgone (hcaptures.present hheld)

end Bar

end QueryBar
