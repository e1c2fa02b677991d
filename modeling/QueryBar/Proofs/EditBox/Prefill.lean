/-
The text of a matcher that is opened, read again.

A box that edits a matcher shows its operator, where one has a place, its comparison and its text.
What is typed goes the other way.  The operator is read again exactly where operators are read, and
the comparison exactly if the text sets it off, as nothing is written between the two
(`prefill_reads_back_iff`).
-/
import QueryBar.EditBox
import QueryBar.Proofs.Tokens.Symbols

namespace QueryBar

/-- The matcher has a comparison that can be typed, and a text with no blanks at its ends. -/
structure Matcher.Spelled (m : Matcher) (c : Config) : Prop where
  comparison : m.comparison ∈ c.comparisons
  trimmed : Text.trim m.text.toList = m.text.toList
  text : m.text ≠ ""

namespace EditBox

/-- The operator that is shown in front of a matcher. -/
def prefillOperator? (m : Matcher) (first : Bool) (mode : OperatorMode) : Option Operator :=
  if first || mode == .simple || m.operator == .none then none else some m.operator

variable {c : Config} {f : Option QueryFunction} {m : Matcher} {first : Bool} {o : Operator}

theorem toList_prefillText_of_none {mode : OperatorMode}
    (h : prefillOperator? m first mode = none) :
    (prefillText m first mode).toList = m.comparison.toList ++ m.text.toList := by
  unfold prefillOperator? at h
  unfold prefillText
  split at h
  · rename_i hfirst
    rw [if_pos hfirst, String.toList_append, String.toList_append]
    rfl
  · contradiction

theorem toList_prefillText_of_some {mode : OperatorMode}
    (h : prefillOperator? m first mode = some o) :
    o ≠ .none ∧ (prefillText m first mode).toList =
      o.name.toList ++ ' ' :: (m.comparison.toList ++ m.text.toList) := by
  unfold prefillOperator? at h
  unfold prefillText
  split at h
  · contradiction
  · rename_i hlater
    obtain rfl := Option.some.inj h
    rw [if_neg hlater]
    refine ⟨?_, ?_⟩
    · rintro hnone
      simp [hnone] at hlater
    · rw [String.toList_append, String.toList_append, String.toList_append, List.append_assoc,
        List.append_assoc]
      rfl

/-! ### What is read of it -/

/-- What is shown begins with a character that is neither blank nor a quote, and nothing of it is
trimmed. -/
theorem trim_prefillText (hc : c.Customary) (hm : m.Spelled c) (first : Bool) :
    let shown := (prefillText m first c.mode).toList
    Text.trim shown = shown ∧ ∃ a rest, shown = a :: rest ∧ a ≠ '"' := by
  have htext : m.text.toList ≠ [] := fun hempty => hm.text (String.toList_eq_nil_iff.mp hempty)
  obtain ⟨a, ha, rest, hfront⟩ := hc.exists_mark hm.comparison
  cases h : prefillOperator? m first c.mode with
  | none =>
      rw [toList_prefillText_of_none h, hfront]
      refine ⟨Text.trim_cons_append (Tokens.isBlank_of_mark ha) hm.trimmed htext rest, a, _, rfl, ?_⟩
      rintro rfl
      revert ha
      decide
  | some o =>
      obtain ⟨ho, hshown⟩ := toList_prefillText_of_some h
      have hword : ∃ first rest, o.name.toList = first :: rest ∧ Text.isBlank first = false ∧
          first ≠ '"' := by
        cases o with
        | none => exact absurd rfl ho
        | and => exact ⟨'a', ['n', 'd'], rfl, by decide, by decide⟩
        | or => exact ⟨'o', ['r'], rfl, by decide, by decide⟩
      obtain ⟨w, word, hname, hblank, hquote⟩ := hword
      rw [hshown, hname]
      have htrim := Text.trim_cons_append hblank hm.trimmed htext
        (word ++ ' ' :: m.comparison.toList)
      simp only [List.cons_append, List.append_assoc] at htrim ⊢
      exact ⟨htrim, w, _, rfl, hquote⟩

/-- **The operator that is shown is read again where operators are read.** -/
theorem ofText_prefillText (hc : c.Customary) (hm : m.Spelled c)
    (hread : prefillOperator? m first c.mode = none ∨ c.readsOperators f = true) :
    Tokens.ofText c f (prefillText m first c.mode) =
      Tokens.ofOperand c f (prefillOperator? m first c.mode)
        (m.comparison.toList ++ m.text.toList) := by
  obtain ⟨htrim, w, tail, hshown, hquote⟩ := trim_prefillText hc hm first
  obtain ⟨a, ha, rest, hfront⟩ := hc.exists_mark hm.comparison
  rw [Tokens.ofText_of_trim htrim hshown hquote]
  cases h : prefillOperator? m first c.mode with
  | none =>
      rw [toList_prefillText_of_none h, hfront, List.cons_append,
        Tokens.readOperator_of_mark hc ha, ite_self]
  | some o =>
      obtain ⟨ho, hsplit⟩ := toList_prefillText_of_some h
      rw [h] at hread
      rw [hsplit, if_pos (hread.resolve_left (by simp)), Tokens.readOperator_of_word ho, hfront,
        List.cons_append, Text.trimStart_cons (Tokens.isBlank_of_mark ha)]

/-- **Where operators are not read, one that is shown makes all of it a search text.** -/
theorem ofText_prefillText_of_unread (hc : c.Customary) (hm : m.Spelled c)
    (h : prefillOperator? m first c.mode = some o) (hunread : c.readsOperators f = false) :
    Tokens.ofText c f (prefillText m first c.mode) =
      { remainder := prefillText m first c.mode } := by
  obtain ⟨htrim, w, tail, hshown, hquote⟩ := trim_prefillText hc hm first
  obtain ⟨ho, hsplit⟩ := toList_prefillText_of_some h
  have hletter : w ∉ comparisonMarks ∧ Bracket.ofChar? w = none := by
    have hsame := hshown.symm.trans hsplit
    cases o with
    | none => exact absurd rfl ho
    | and =>
        obtain ⟨rfl, -⟩ := List.cons.inj hsame
        decide
    | or =>
        obtain ⟨rfl, -⟩ := List.cons.inj hsame
        decide
  rw [Tokens.ofText_of_trim htrim hshown hquote, if_neg (by rw [hunread]; exact Bool.false_ne_true)]
  dsimp only
  rw [hshown, Tokens.ofOperand_of_word hc hletter.1 hletter.2, ← hshown, String.ofList_toList]

/-- **Comparison and text are read again as they are exactly if the operator in front of them is
read, where one is shown, and the text sets the comparison off.** -/
theorem ofText_prefillText_iff (hc : c.Customary) (hm : m.Spelled c) (f : Option QueryFunction)
    (first : Bool) :
    let tokens := Tokens.ofText c f (prefillText m first c.mode)
    tokens.comparison = some m.comparison ∧ tokens.remainder = m.text ↔
      (prefillOperator? m first c.mode = none ∨ c.readsOperators f = true) ∧
        c.SetsOff m.comparison m.text.toList := by
  intro tokens
  have htext : m.text.toList ≠ [] := fun hempty => hm.text (String.toList_eq_nil_iff.mp hempty)
  by_cases hread : prefillOperator? m first c.mode = none ∨ c.readsOperators f = true
  · have htokens : tokens = Tokens.ofOperand c f (prefillOperator? m first c.mode)
        (m.comparison.toList ++ m.text.toList) := ofText_prefillText hc hm hread
    have hiff := Tokens.ofOperand_append_iff f (prefillOperator? m first c.mode) hc hm.comparison
      (Text.trimStart_of_trim hm.trimmed) htext
    rw [String.ofList_toList] at hiff
    rw [htokens, and_iff_right hread]
    exact hiff
  · obtain ⟨hshown, hunread⟩ := not_or.mp hread
    obtain ⟨o, ho⟩ := Option.ne_none_iff_exists'.mp hshown
    have htokens : tokens = { remainder := prefillText m first c.mode } :=
      ofText_prefillText_of_unread hc hm ho (Bool.eq_false_iff.mpr hunread)
    rw [htokens]
    exact iff_of_false (by simp) fun h => hread h.1

/-- **Comparison and text of a matcher that is opened are read again as they are exactly if the
text sets the comparison off**, at the start of the row and later. -/
theorem prefill_reads_back_iff (hc : c.Customary) (hmode : c.mode = .complex) (hm : m.Spelled c)
    (first allowFreeText : Bool) (generation : Generation) :
    let box := EditBox.editing m first c.mode allowFreeText generation
    let tokens := Tokens.ofText c none box.text
    tokens.comparison = some m.comparison ∧ tokens.remainder = m.text ↔
      c.SetsOff m.comparison m.text.toList := by
  have hreads : c.readsOperators none = true := by
    unfold Config.readsOperators
    rw [hmode]
    rfl
  have hiff := ofText_prefillText_iff hc hm none first
  rw [and_iff_right (Or.inr hreads)] at hiff
  exact hiff

/-- Names of files, compared as texts are. -/
def fileNames : Config :=
  .ofSources [{ name := "file", title := "Files", comparisons := stringComparisons }]

/-- A file whose name is not the given one. -/
def otherThan (name : String) : Matcher where
  key := "m1"
  operator := .or
  comparison := "!"
  source := "file"
  value := .text name
  text := name

theorem customary_fileNames : fileNames.Customary where
  andSymbol := rfl
  orSymbol := rfl
  comparisons := Or.inl fun _ => Iff.rfl

/-- A text may begin with marks, if the first of them does not go with the comparison. -/
theorem prefill_reads_back_iff_marked :
    fileNames.Customary ∧ fileNames.mode = .complex ∧ (otherThan "<*a").Spelled fileNames ∧
      (Tokens.ofText fileNames none "or !<*a").comparison = some "!" ∧
      (Tokens.ofText fileNames none "or !<*a").remainder = "<*a" := by
  have hspelled : (otherThan "<*a").Spelled fileNames := by
    refine ⟨by decide, by decide, by decide⟩
  have hapart : fileNames.isComparison (String.ofList ['!', '<']) = false := by decide
  have hsets : fileNames.SetsOff (String.singleton '!') ['<', '*', 'a'] :=
    customary_fileNames.setsOff_single_iff.mpr hapart
  refine ⟨customary_fileNames, rfl, hspelled, ?_⟩
  exact (prefill_reads_back_iff customary_fileNames rfl hspelled false false (.fresh 0)).mpr hsets

/-- **A star at the front of the text goes with the comparison**, so that a box that is left as it
was opened asks for another comparison and another text. -/
theorem prefill_misread_starred :
    let box := EditBox.editing (otherThan "*.txt") true fileNames.mode false (.fresh 0)
    let tokens := Tokens.ofText fileNames none box.text
    fileNames.Customary ∧ (otherThan "*.txt").Spelled fileNames ∧ box.text = "!*.txt" ∧
      tokens.comparison = some "!*" ∧ tokens.remainder = ".txt" := by
  refine ⟨customary_fileNames, ⟨by decide, by decide, by decide⟩, by decide, by decide, by decide⟩

end EditBox

end QueryBar
