/-
What a new text starts.

A text is searched for unless it is blank, free text or a bracket.  `Inquiry` is what such
a search is about: the surroundings at that moment, what was typed, and the
generation whose requests it makes.  `Inquiry.ShownBy` says that a box shows it, with some
answers put in.

`typeText` either starts an inquiry, whose findings the box then shows and whose requests
it hands out, or ends the search of the box and hands out nothing.
-/
import QueryBar.Proofs.EditBox.Courses
import QueryBar.Proofs.Search.Answers
import QueryBar.Proofs.Tokens

namespace QueryBar

/-- A search that a box makes. -/
structure Inquiry where
  context : SearchContext
  search : String
  operator : Option Operator
  comparison : Option String
  generation : Generation

namespace Inquiry

/-- What the search finds at once, and its requests. -/
def findings (q : Inquiry) : Findings := q.context.find q.search q.operator q.generation

/-- The box shows what the search found, with answers put in. -/
structure ShownBy (q : Inquiry) (answers : List LookupAnswer) (e : EditBox) : Prop where
  generation : e.generation = q.generation
  operator : e.operator = q.operator
  comparison : e.comparison = q.comparison
  matchText : e.matchText = some q.search
  buckets : e.buckets = q.findings.buckets.withAnswers q.context.config answers

theorem ShownBy.keeps {q : Inquiry} {answers : List LookupAnswer} {e e' : EditBox}
    (h : q.ShownBy answers e) (hkeeps : e.Keeps e') : q.ShownBy answers e' where
  generation := hkeeps.generation.trans h.generation
  operator := hkeeps.operator.trans h.operator
  comparison := hkeeps.comparison.trans h.comparison
  matchText := hkeeps.matchText.trans h.matchText
  buckets := hkeeps.buckets.trans h.buckets

end Inquiry

namespace EditBox

/-- The search for a text, whatever the text is. -/
def inquiryFor (e : EditBox) (around : Surroundings) (text : String) : Inquiry :=
  let tokens := Tokens.ofText around.config around.function text
  { context :=
      { config := around.config
        function := around.function
        matchers := around.matchers
        allowFunctions := e.allowFunctions }
    search := tokens.remainder
    operator := tokens.operator
    comparison := tokens.comparison
    generation := e.generation.advance }

/-- What is searched for when a box takes a new text; nothing if the text is blank, free text or
a bracket. -/
def inquiry? (e : EditBox) (around : Surroundings) (text : String) : Option Inquiry :=
  let tokens := Tokens.ofText around.config around.function text
  if tokens.freeText || tokens.isEmpty || tokens.bracket.isSome then none
  else some (e.inquiryFor around text)

variable {e : EditBox} {around : Surroundings} {text : String} {q : Inquiry}

theorem of_inquiry?_eq_some (h : e.inquiry? around text = some q) :
    let tokens := Tokens.ofText around.config around.function text
    (tokens.freeText || tokens.isEmpty) = false ∧ tokens.bracket = none
      ∧ q = e.inquiryFor around text := by
  unfold inquiry? at h
  dsimp only at h
  split at h
  · simp at h
  · rename_i hplain
    rw [Bool.not_eq_true, Bool.or_eq_false_iff] at hplain
    exact ⟨hplain.1, by simpa using hplain.2, (Option.some.inj h).symm⟩

theorem of_inquiry?_eq_none (h : e.inquiry? around text = none) :
    let tokens := Tokens.ofText around.config around.function text
    (tokens.freeText || tokens.isEmpty) = true ∨ ∃ b, tokens.bracket = some b := by
  unfold inquiry? at h
  dsimp only at h
  split at h
  · rename_i hplain
    rw [Bool.or_eq_true] at hplain
    rcases hplain with hblank | hbracket
    · exact Or.inl hblank
    · exact Or.inr (Option.isSome_iff_exists.mp hbracket)
  · simp at h

/-- **A text that is searched for starts its inquiry.** -/
theorem typeText_of_inquiry (keys : KeySupply) (h : e.inquiry? around text = some q) :
    let turn := e.typeText around keys text
    turn.answer = q.findings.pending ∧ q.ShownBy [] turn.box
      ∧ ∀ n ∈ turn.notices, n = .changing := by
  obtain ⟨hplain, hbracket, rfl⟩ := of_inquiry?_eq_some h
  have hfound : (e.inquiryFor around text).findings
      = SearchContext.find ⟨around.config, around.function, around.matchers, e.allowFunctions⟩
          (Tokens.ofText around.config around.function text).remainder
          (Tokens.ofText around.config around.function text).operator e.generation.advance := rfl
  unfold typeText
  simp only [hplain, hbracket, Bool.false_eq_true, if_false]
  rw [← hfound]
  refine ⟨rfl, ?_, ?_⟩
  · refine Inquiry.ShownBy.keeps ?_ (resembles_settleHighlight _).toKeeps
    refine ⟨rfl, rfl, rfl, rfl, ?_⟩
    rw [Buckets.withAnswers_nil]
  · intro n hn
    split at hn
    · exact List.mem_singleton.mp hn
    · simp at hn

/-- **A text that is not searched for ends the search, and nothing is handed out.** -/
theorem typeText_of_no_inquiry (keys : KeySupply) (h : e.inquiry? around text = none) :
    (e.typeText around keys text).answer = []
      ∧ Closes e (e.typeText around keys text).box := by
  unfold typeText
  dsimp only
  split
  · refine ⟨rfl, ?_⟩
    refine Closes.trans_follows ?_ (Or.inl (resembles_settleHighlight _).toKeeps)
    exact ⟨rfl, Nat.lt_succ_self _, rfl, rfl⟩
  · rename_i hplain
    obtain ⟨b, hb⟩ := (of_inquiry?_eq_none h).resolve_left hplain
    simp only [hb, true_and]
    refine Closes.trans_follows ?_
      ((resembles_settleHighlight _).toKeeps.trans_follows
        (course_takeBracket _ around keys b).follows)
    exact ⟨rfl, Nat.lt_succ_self _, rfl, rfl⟩

/-! ### What becomes of the box -/

/-- The second box holds the new text, and is about what the first was about. -/
structure Retypes (e : EditBox) (text : String) (e' : EditBox) : Prop where
  matcher : e'.matcher = e.matcher
  allowFunctions : e'.allowFunctions = e.allowFunctions
  text : e'.text = text

theorem Retypes.settled {e' : EditBox} (h : e.Retypes text e') :
    e.Retypes text e'.settleHighlight :=
  have hbox := resembles_settleHighlight e'
  ⟨hbox.matcher.trans h.matcher, hbox.allowFunctions.trans h.allowFunctions,
    hbox.text.trans h.text⟩

theorem Legible.settled (h : e.Legible) : e.settleHighlight.Legible :=
  (resembles_settleHighlight e).legible h

/-- A box says at most that its matcher has been touched, before anything else. -/
theorem eq_changing_of_mem {touches : Bool} {n : Notice}
    (h : n ∈ if touches then [Notice.changing] else []) : n = .changing := by
  split at h
  · exact List.mem_singleton.mp h
  · simp at h

/-- **A text without a bracket stands in the box.**  It is not empty if it is searched for. -/
theorem typeText_of_no_bracket (e : EditBox) (around : Surroundings) (keys : KeySupply)
    (h : (Tokens.ofText around.config around.function text).bracket = none) :
    let turn := e.typeText around keys text
    e.Retypes text turn.box ∧ turn.box.Legible ∧ ∀ n ∈ turn.notices, n = .changing := by
  unfold typeText
  dsimp only
  split
  · dsimp only
    exact ⟨.settled ⟨rfl, rfl, rfl⟩, .settled (legible_of_unsearched rfl),
      fun n hn => eq_changing_of_mem hn⟩
  · rename_i hplain
    rw [Bool.or_eq_true, not_or, Bool.not_eq_true, Bool.not_eq_true] at hplain
    rw [h]
    dsimp only
    refine ⟨.settled ⟨rfl, rfl, rfl⟩, .settled fun _ => ?_, fun n hn => eq_changing_of_mem hn⟩
    refine Bool.eq_false_iff.mpr fun hempty => ?_
    rw [Tokens.isEmpty_of_text hempty] at hplain
    exact Bool.noConfusion hplain.2

/-- The box with a text in it that has just been typed, before anything is made of the text. -/
def holding (e : EditBox) (around : Surroundings) (text : String) : EditBox :=
  let tokens := Tokens.ofText around.config around.function text
  { e with
    text
    operator := tokens.operator
    comparison := tokens.comparison
    matchText := none
    generation := e.generation.advance
    buckets := [] }

/-- **A bracket is taken by the box in which it stands.** -/
theorem typeText_holding (e : EditBox) (around : Surroundings) (keys : KeySupply) {b : Bracket}
    (h : (Tokens.ofText around.config around.function text).bracket = some b) :
    ∃ typed asides, (e.holding around text).Resembles typed ∧
      (∀ n ∈ asides, n = Notice.changing) ∧
      let turn := e.typeText around keys text
      let taken := typed.takeBracket around keys b
      turn.box = taken.box ∧ turn.keys = taken.keys ∧ turn.notices = asides ++ taken.notices := by
  unfold typeText
  dsimp only
  rw [if_neg (by rw [Tokens.of_bracket h]; exact Bool.false_ne_true), h]
  dsimp only
  refine ⟨_, _, ?_, fun n hn => eq_changing_of_mem hn, rfl, rfl, rfl⟩
  refine Resembles.trans ?_ (resembles_settleHighlight _)
  exact ⟨⟨rfl, rfl, rfl, rfl, rfl, rfl⟩, rfl, rfl, rfl, rfl⟩

/-- The box in which a bracket stands is about what it was about, and nothing is searched for. -/
theorem typeText_of_bracket (e : EditBox) (around : Surroundings) (keys : KeySupply) {b : Bracket}
    (h : (Tokens.ofText around.config around.function text).bracket = some b) :
    ∃ typed asides, e.Retypes text typed ∧ typed.Legible ∧
      (∀ n ∈ asides, n = Notice.changing) ∧
      let turn := e.typeText around keys text
      let taken := typed.takeBracket around keys b
      turn.box = taken.box ∧ turn.keys = taken.keys ∧ turn.notices = asides ++ taken.notices := by
  obtain ⟨typed, asides, hbox, hasides, hturn⟩ := e.typeText_holding around keys h
  exact ⟨typed, asides, ⟨hbox.matcher, hbox.allowFunctions, hbox.text⟩,
    legible_of_unsearched hbox.matchText, hasides, hturn⟩

/-! ### Answers -/

/-- An answer to a request of another generation changes nothing. -/
theorem takeAnswer_of_stale {a : LookupAnswer} (c : Config)
    (h : ¬ (a.owner = e.generation.owner ∧ a.token = e.generation.current)) :
    e.takeAnswer c a = (e, false) := if_neg h

/-- An answer changes what is shown and nothing else. -/
theorem takeAnswer_eq (e : EditBox) (c : Config) (a : LookupAnswer) :
    ∃ bs, { e with buckets := bs }.Resembles (e.takeAnswer c a).1 ∧
      (bs = e.buckets ∨ e.buckets.withAnswer? c a = some bs) := by
  unfold takeAnswer
  split
  · split
    · rename_i bs hbs
      exact ⟨bs, resembles_settleHighlight _, Or.inr hbs⟩
    · exact ⟨e.buckets, Resembles.refl e, Or.inl rfl⟩
  · exact ⟨e.buckets, Resembles.refl e, Or.inl rfl⟩

theorem generation_takeAnswer (e : EditBox) (c : Config) (a : LookupAnswer) :
    (e.takeAnswer c a).1.generation = e.generation := by
  obtain ⟨bs, hbox, -⟩ := e.takeAnswer_eq c a
  exact hbox.generation

/-- An answer to a request of the inquiry is put in. -/
theorem shownBy_takeAnswer {answers : List LookupAnswer} {a : LookupAnswer}
    (h : q.ShownBy answers e)
    (ha : a.owner = q.generation.owner ∧ a.token = q.generation.current) :
    q.ShownBy (answers ++ [a]) (e.takeAnswer q.context.config a).1 := by
  have hnow : a.owner = e.generation.owner ∧ a.token = e.generation.current := by
    rw [h.generation]
    exact ha
  have hbuckets : q.findings.buckets.withAnswers q.context.config (answers ++ [a])
      = (e.buckets.withAnswer? q.context.config a).getD e.buckets := by
    rw [Buckets.withAnswers_append, ← h.buckets]
    rfl
  unfold takeAnswer
  rw [if_pos hnow]
  split
  · rename_i bs hbs
    rw [hbs] at hbuckets
    refine Inquiry.ShownBy.keeps ?_ (resembles_settleHighlight _).toKeeps
    exact ⟨h.generation, h.operator, h.comparison, h.matchText, hbuckets.symm⟩
  · rename_i hnone
    rw [hnone] at hbuckets
    exact ⟨h.generation, h.operator, h.comparison, h.matchText, hbuckets.symm⟩

end EditBox

end QueryBar
