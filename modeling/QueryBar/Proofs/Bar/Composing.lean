/-
Picking an operator or a comparison for a text.

To pick is to type a line that is put together of what the box has taken note of: the operator, the
comparison and the search text, the first two of them replaced by what is picked
(`EditBox.parts`).  What the box ought to hold then is what its text is read as, with the picks
in their places (`Tokens.picked`).

Of a text that was searched for the box has noted what was read, and that stays right as long as the
same function is active (`Watch.Reachable.parts_eq_picked`).  A box that shows its matcher has noted
the operator and the comparison of the matcher, but no search text.
-/
import QueryBar.Proofs.Bar.Eligibility
import QueryBar.Proofs.Tokens.Lines

namespace QueryBar

/-- Nothing but a bracket or free text is more than an operator, a comparison and a search text. -/
theorem Tokens.eq_of_plain {t : Tokens} (hbracket : t.bracket = none) (hfree : t.freeText = false) :
    t = { operator := t.operator, comparison := t.comparison, remainder := t.remainder } := by
  cases t
  cases hbracket
  cases hfree
  rfl

/-- What was read, with the picks in their places. -/
def Tokens.picked (t : Tokens) (operator : Option Operator) (comparison : Option String) :
    Tokens where
  operator := operator.or t.operator
  comparison := comparison.or t.comparison
  remainder := t.remainder

/-- Picks make no more empty what was read. -/
theorem Tokens.isEmpty_picked {t : Tokens} (hbracket : t.bracket = none) (h : t.isEmpty = false)
    (operator : Option Operator) (comparison : Option String) :
    (t.picked operator comparison).isEmpty = false := by
  rw [← Bool.not_eq_true] at h ⊢
  intro hempty
  apply h
  unfold picked isEmpty at hempty
  unfold isEmpty
  simp only [Option.isNone_or, Bool.and_eq_true] at hempty
  obtain ⟨⟨⟨⟨-, hoperator⟩, -, hcomparison⟩, -⟩, hremainder⟩ := hempty
  rw [hoperator, hcomparison, hbracket, hremainder]
  rfl

/-- What a search is made for, taken apart. -/
def Inquiry.tokens (q : Inquiry) : Tokens where
  operator := q.operator
  comparison := q.comparison
  remainder := q.search

/-- The search is the one for the text. -/
structure Inquiry.IsFor (q : Inquiry) (text : String) : Prop where
  read : Tokens.ofText q.context.config q.context.function text = q.tokens
  nonempty : q.tokens.isEmpty = false

/-- What a search is made for can be written again. -/
theorem Inquiry.IsFor.writable {q : Inquiry} {text : String} (h : q.IsFor text) :
    Tokens.Writable q.context.config q.context.function q.operator q.comparison q.search := by
  have hread := h.read
  have hwritable := (Tokens.writable_ofText (by rw [hread]; rfl) (by rw [hread]; rfl)).1
  rw [hread] at hwritable
  exact hwritable

namespace EditBox

/-- The parts of the line that is put together for the picks. -/
def parts (e : EditBox) (operator : Option Operator) (comparison : Option String) : Tokens where
  operator := (operator.or e.operator).filter (· ≠ .none)
  comparison := comparison.or e.comparison
  remainder := e.matchText.getD ""

/-- The box searches for what was read, and has noted its operator and its comparison. -/
structure Holds (e : EditBox) (t : Tokens) : Prop where
  matchText : e.matchText = some t.remainder
  operator : e.operator = t.operator
  comparison : e.comparison = t.comparison

/-- The line is put together of its parts. -/
theorem composedText_eq (e : EditBox) (operator : Option Operator) (comparison : Option String) :
    e.composedText operator comparison =
      Tokens.line (e.parts operator comparison).operator (e.parts operator comparison).comparison
        (e.parts operator comparison).remainder := by
  unfold composedText parts Tokens.line
  dsimp only
  congr 2
  cases operator.or e.operator with
  | none => rfl
  | some o => cases o <;> rfl

end EditBox

/-- Nothing is left out of what is no empty operator. -/
theorem filter_word {operator : Option Operator} (h : operator ≠ some .none) :
    operator.filter (· ≠ .none) = operator := by
  cases operator with
  | none => rfl
  | some o => cases o <;> first | rfl | contradiction

namespace Bar

variable {b : Bar} {text : String} {q : Inquiry} {t : Tokens} {operator : Option Operator}
  {comparison : Option String}

theorem isFor_of_inquiry (h : b.inquiry? text = some q) : q.IsFor text := by
  obtain ⟨hplain, hbracket, rfl⟩ := of_inquiry?_eq_some h
  obtain ⟨hfree, hempty⟩ := Bool.or_eq_false_iff.mp hplain
  have hread := Tokens.eq_of_plain hbracket hfree
  exact ⟨hread, hread ▸ hempty⟩

/-- A text without a bracket stands in the box. -/
theorem text_input (h : (Tokens.ofText b.config b.function text).bracket = none) :
    (b.input text).1.box.text = text := by
  obtain ⟨hbox, -, hnotices⟩ := b.box.typeText_of_no_bracket b.surroundings b.keys h
  have hkept : (b.input text).1.box = (b.box.typeText b.surroundings b.keys text).box :=
    box_foldl_heed_changing _ hnotices _
  rw [hkept]
  exact hbox.text

/-- **What the box holds once a text has been typed**: what the text is read as, if it is neither
empty nor a bracket nor free text. -/
theorem holds_input_iff (hbracket : t.bracket = none) (hfree : t.freeText = false) :
    (b.input text).1.box.Holds t ↔
      Tokens.ofText b.config b.function text = t ∧ t.isEmpty = false := by
  constructor
  · intro hholds
    cases hq : b.inquiry? text with
    | none =>
        have hnone := (input_of_no_inquiry hq).2.matchText
        rw [hholds.matchText] at hnone
        contradiction
    | some q =>
        have hfor := isFor_of_inquiry hq
        have hshown := (input_of_inquiry hq).2
        have hsame : q.tokens = t := by
          rw [Tokens.eq_of_plain hbracket hfree]
          unfold Inquiry.tokens
          rw [Option.some.inj (hshown.matchText.symm.trans hholds.matchText),
            hshown.operator.symm.trans hholds.operator,
            hshown.comparison.symm.trans hholds.comparison]
        have hconfig : q.context.config = b.config := config_of_inquiry hq
        have hfunction : q.context.function = b.function := by
          obtain ⟨-, -, rfl⟩ := of_inquiry?_eq_some hq
          rfl
        exact ⟨hconfig ▸ hfunction ▸ hsame ▸ hfor.read, hsame ▸ hfor.nonempty⟩
  · rintro ⟨rfl, hempty⟩
    cases hq : b.inquiry? text with
    | none =>
        have hplain := of_inquiry?_eq_none hq hbracket
        rw [hfree, hempty] at hplain
        contradiction
    | some q =>
        have hshown := (input_of_inquiry hq).2
        obtain ⟨-, -, rfl⟩ := of_inquiry?_eq_some hq
        exact ⟨hshown.matchText, hshown.operator, hshown.comparison⟩

/-- **Parts that can be written and do not mislead are what the box holds**, unless there are
none. -/
theorem holds_compose_iff (hc : b.config.PlainComparisons)
    (hreads : b.config.readsOperators b.function = true)
    (hwritable : Tokens.Writable b.config b.function (b.box.parts operator comparison).operator
      (b.box.parts operator comparison).comparison (b.box.parts operator comparison).remainder)
    (hplain : ¬ Tokens.Misleads b.config (b.box.parts operator comparison).operator
      (b.box.parts operator comparison).comparison)
    (hbracket : t.bracket = none) (hfree : t.freeText = false) :
    (b.compose operator comparison).1.box.Holds t ↔
      b.box.parts operator comparison = t ∧ t.isEmpty = false := by
  rw [compose_eq_input, holds_input_iff hbracket hfree, EditBox.composedText_eq,
    (hwritable.reads_iff hc hreads).mpr hplain]
  rfl

end Bar

namespace Watch

variable {w : Watch} {b : Bar} {q : Inquiry} {operator : Option Operator}
  {comparison : Option String}

/-! ### The search is the one for the text -/

theorem isFor_of_follows (h : ∀ q, w.inquiry = some q → q.IsFor w.bar.box.text)
    (hfollows : w.bar.box.Follows b.box) :
    ∀ q, inquiry { w with bar := b } = some q → q.IsFor b.box.text := by
  intro q hq
  unfold inquiry at hq
  dsimp only at hq
  rcases hfollows with hkeeps | hcloses
  · rw [hkeeps.matchText] at hq
    rw [hkeeps.text]
    exact h q hq
  · rw [hcloses.matchText] at hq
    contradiction

/-- **The search that is open is the one for the text in the box**, whatever has been done since the
text was typed. -/
theorem Reachable.isFor (h : Reachable w) : ∀ q, w.inquiry = some q → q.IsFor w.bar.box.text := by
  induction h with
  | start config owner =>
      intro q hq
      contradiction
  | equip _ hequips ih => exact isFor_of_follows ih (follows_equips hequips).box
  | @step w _ operation _ ih =>
      rcases w.step_cases operation with ⟨text, hstep⟩ | ⟨a, -, hstep⟩ | ⟨b, hstep, hfollows⟩
      · intro q hq
        rw [hstep] at hq ⊢
        have hfor := inquiry?_of_typed hq
        have htext : (w.typed text).bar.box.text = text :=
          Bar.text_input (Bar.of_inquiry?_eq_some hfor).2.1
        rw [htext]
        exact Bar.isFor_of_inquiry hfor
      · obtain ⟨bs, hbox, -⟩ := w.bar.box.takeAnswer_eq w.bar.config a
        intro q hq
        rw [hstep] at hq ⊢
        have htext : (w.delivered a).bar.box.text = w.bar.box.text := hbox.text
        have hsame : (w.delivered a).inquiry = w.inquiry := by
          have hmatch : (w.delivered a).bar.box.matchText = w.bar.box.matchText := hbox.matchText
          unfold inquiry
          rw [hmatch]
          rfl
        rw [htext]
        exact ih q (hsame ▸ hq)
      · rw [hstep]
        exact isFor_of_follows ih hfollows.box

/-- What is searched for has no blanks at its ends. -/
theorem Reachable.trim_search (h : Reachable w) :
    Text.trim (w.bar.box.matchText.getD "").toList = (w.bar.box.matchText.getD "").toList := by
  have hsound := sound_reachable h
  cases hq : w.inquiry with
  | none =>
      rw [(hsound.closed hq).1]
      rfl
  | some q =>
      rw [(hsound.shown q hq).1.matchText]
      exact (h.isFor q hq).writable.trimmed

/-- **Of a text that is searched for, the box has noted what it is read as**, as long as the
function is the one under which it was read. -/
theorem Reachable.parts_eq_picked (h : Reachable w) (hcurrent : w.Current)
    (hsearch : w.bar.box.matchText.isSome = true) (ho : operator ≠ some .none)
    (comparison : Option String) :
    let t := Tokens.ofText w.bar.config w.bar.function w.bar.box.text
    let picked := t.picked operator comparison
    w.bar.box.parts operator comparison = picked ∧ picked.isEmpty = false := by
  intro t picked
  have hsound := sound_reachable h
  cases hq : w.inquiry with
  | none =>
      rw [(hsound.closed hq).1] at hsearch
      contradiction
  | some q =>
      obtain ⟨hshown, hconfig, -⟩ := hsound.shown q hq
      have hfor := h.isFor q hq
      have hread := hfor.read
      rw [hconfig, hcurrent q hq] at hread
      have hpicked : picked = q.tokens.picked operator comparison := by
        unfold picked t
        rw [hread]
      rw [hpicked]
      have hword : operator.or q.operator ≠ some .none :=
        Tokens.or_word ho hfor.writable.word
      constructor
      · unfold EditBox.parts Tokens.picked
        rw [hshown.operator, hshown.comparison, hshown.matchText, Option.getD_some,
          filter_word hword]
        rfl
      · exact Tokens.isEmpty_picked rfl hfor.nonempty ..

/-! ### Picking -/

/-- **When picking keeps the search text.**  The box then searches for what its text was read as,
and what was not picked is as it was read.

- What is put together is what was read, with the picks in their places, if the text was searched
  for and the function is still the one under which it was read.
- If so, the box holds just that, unless there is no operator and the comparison begins with the
  symbol of one, or there is nothing at all to be typed.
- A line with a comparison that can be typed, and does not mislead, gives the box nothing but what
  it was put together of. -/
theorem compose_keeps_search_iff (h : Reachable w) (hmode : w.bar.config.mode = .complex)
    (hplain : w.bar.config.PlainComparisons) (hfunction : w.bar.function = none)
    (hbracket : (Tokens.ofText w.bar.config none w.bar.box.text).bracket = none)
    (hfree : (Tokens.ofText w.bar.config none w.bar.box.text).freeText = false)
    (ho : operator ≠ some .none) (hx : ∀ x, comparison = some x → x ∈ w.bar.config.comparisons) :
    let c := w.bar.config
    let picked := (Tokens.ofText c none w.bar.box.text).picked operator comparison
    let parts := w.bar.box.parts operator comparison
    let composed := (w.bar.compose operator comparison).1.box
    (w.Current → w.bar.box.matchText.isSome = true → parts = picked ∧ picked.isEmpty = false) ∧
      (parts = picked → (composed.Holds picked ↔
        ¬ Tokens.Misleads c picked.operator picked.comparison ∧ picked.isEmpty = false)) ∧
      ∀ x ∈ c.comparisons, parts.comparison = some x →
        ¬ Tokens.Misleads c parts.operator parts.comparison →
        (composed.Holds picked ↔ parts = picked) := by
  intro c picked parts composed
  have hreads : c.readsOperators w.bar.function = true := by
    rw [hfunction]
    unfold Config.readsOperators
    rw [hmode]
    rfl
  have hwritable := (Tokens.writable_ofText hbracket hfree).1.or ho hx
  refine ⟨?_, ?_, ?_⟩
  · intro hcurrent hsearch
    have hparts := h.parts_eq_picked hcurrent hsearch ho comparison
    rw [hfunction] at hparts
    exact hparts
  · intro hparts
    have hread := hwritable.reads_iff hplain (hfunction ▸ hreads)
    have hholds : composed.Holds picked ↔ _ := Bar.holds_input_iff rfl rfl
    rw [EditBox.composedText_eq, show w.bar.box.parts operator comparison = picked from hparts,
      hfunction] at hholds
    exact hholds.trans (and_congr hread Iff.rfl)
  · intro x hmem hcomparison hclear
    have hnonempty : parts = picked → picked.isEmpty = false := by
      rintro heq
      unfold Tokens.isEmpty
      rw [← heq, hcomparison]
      simp
    have hword : parts.operator ≠ some .none := by
      intro hnone
      have hkept := (Option.filter_eq_some_iff.mp hnone).2
      contradiction
    have hwritable : Tokens.Writable c w.bar.function parts.operator parts.comparison
        parts.remainder := by
      rw [hcomparison]
      exact Tokens.writable_of_comparison hword hmem h.trim_search
    have hholds : composed.Holds picked ↔ parts = picked ∧ picked.isEmpty = false :=
      Bar.holds_compose_iff hplain hreads hwritable hclear rfl rfl
    exact hholds.trans ⟨And.left, fun heq => ⟨heq, hnonempty heq⟩⟩

/-- Colours, with a function under which no operators are read. -/
def palette : Config :=
  { Config.ofSources
      [{ name := "colour", title := "Colours", comparisons := ["=", "!", "&="] }] with
    functions := [{ name := "Mix", noOperators := true }] }

theorem plainComparisons_palette : palette.PlainComparisons := by
  have hcomparisons : palette.comparisons = ["=", "!", "&="] := by decide
  refine ⟨by decide, ?_⟩
  rw [hcomparisons]
  simp only [List.forall_mem_cons, List.not_mem_nil]
  refine ⟨?_, ?_, ?_, fun x h => h.elim⟩
  · exact List.forall_mem_singleton.mpr (by decide)
  · exact List.forall_mem_singleton.mpr (by decide)
  · exact List.forall_mem_cons.mpr ⟨by decide, List.forall_mem_singleton.mpr (by decide)⟩

/-- A bar of the palette into which a colour has been typed. -/
def painting : Watch := (start palette 0).step (.input "or !red")

theorem compose_keeps_search_iff_painting :
    Reachable painting ∧ painting.bar.config.mode = .complex ∧
      painting.bar.config.PlainComparisons ∧ painting.bar.function.isNone = true ∧
      (painting.bar.compose (some .and) (some "&=")).1.box.Holds
        { operator := some .and, comparison := some "&=", remainder := "red" } := by
  have hreachable : Reachable painting := .step (.start palette 0) (.input "or !red") trivial
  have hcurrent : painting.Current := current_typed _ "or !red"
  have hread : Tokens.ofText painting.bar.config none painting.bar.box.text =
      { operator := some .or, comparison := some "!", remainder := "red" } := by decide +kernel
  have hpick : ∀ x, some "&=" = some x → x ∈ painting.bar.config.comparisons := by
    rintro x hx
    obtain rfl := Option.some.inj hx
    decide +kernel
  have hword : some Operator.and ≠ some .none := by decide
  obtain ⟨hparts, hholds, -⟩ := compose_keeps_search_iff hreachable rfl plainComparisons_palette
    rfl (by rw [hread]) (by rw [hread]) hword hpick
  rw [hread] at hparts hholds
  obtain ⟨hsame, hsome⟩ := hparts hcurrent (by decide +kernel)
  refine ⟨hreachable, rfl, plainComparisons_palette, by decide +kernel, ?_⟩
  refine (hholds hsame).mpr ⟨?_, hsome⟩
  rintro ⟨hnone, -⟩
  contradiction

/-- The second colour of a row is opened. -/
def repainting : Watch :=
  let row := [Bar.colour "a" "red", Bar.colour "b" "green"]
  step { start palette 0 with bar := (start palette 0).bar.withMatchers row } (.select 1)

/-- **Picking takes away the text of a matcher that is opened**: the box shows it without having
read it. -/
theorem compose_loses_opened_text :
    let t := Tokens.ofText palette none repainting.bar.box.text
    let composed := (repainting.bar.compose none (some "!")).1.box
    Reachable repainting ∧ repainting.bar.config = palette ∧ palette.mode = .complex ∧
      palette.PlainComparisons ∧ repainting.bar.function.isNone = true ∧
      repainting.bar.box.text = "and =green" ∧
      t = { operator := some .and, comparison := some "=", remainder := "green" } ∧
      composed.text = "and ! " ∧ composed.matchText = some "" ∧
      ¬ composed.Holds (t.picked none (some "!")) := by
  intro t composed
  have hreachable : Reachable repainting :=
    .step (.equip (.start palette 0) (.matchers _)) (.select 1) trivial
  have hlost : composed.matchText = some "" := by decide +kernel
  have hread : t = { operator := some .and, comparison := some "=", remainder := "green" } := by
    decide +kernel
  refine ⟨hreachable, rfl, rfl, plainComparisons_palette, by decide +kernel, by decide +kernel,
    hread, by decide +kernel, hlost, fun hholds => ?_⟩
  have hkept := hholds.matchText
  rw [hlost, hread] at hkept
  revert hkept
  decide

/-- **A comparison that begins with the symbol of an operator is taken for the operator.** -/
theorem compose_misled_by_symbol :
    let w := (start palette 0).step (.input "red")
    let composed := (w.bar.compose none (some "&=")).1.box
    Reachable w ∧ composed.operator = some .and ∧ composed.comparison = some "=" ∧
      composed.matchText = some "red" := by
  intro w composed
  exact ⟨.step (.start palette 0) (.input "red") trivial, by decide +kernel, by decide +kernel,
    by decide +kernel⟩

/-- **What was read under a function stays noted when the function is dropped.** -/
theorem compose_keeps_dropped_reading :
    let w := ((((start palette 0).step (.input "mi")).step (.key { key := .enter })).step
      (.input "or red")).step dropping
    let composed := (w.bar.compose (some .and) none).1.box
    Reachable w ∧ w.bar.function.isNone = true ∧ w.bar.box.text = "or red" ∧
      Tokens.ofText palette none "or red" = { operator := some .or, remainder := "red" } ∧
      composed.matchText = some "or red" := by
  intro w composed
  refine ⟨?_, by decide +kernel, by decide +kernel, by decide +kernel, by decide +kernel⟩
  exact .step (.step (.step (.step (.start palette 0) (.input "mi") trivial)
    (.key { key := .enter }) trivial) (.input "or red") trivial) dropping trivial

end Watch

end QueryBar
