/-
What a new text starts in a whole bar.

The bar passes a text on to the open box and acts on its notices.  If the text is searched
for, the box at most says that its matcher is being edited, which leaves the box alone; in
all other cases the search of the box has been ended already, and whatever the notices are
it stays ended.  To pick an operator or a comparison is to type the text that is composed
of them.
-/
import QueryBar.Bar.Replay
import QueryBar.Proofs.Bar.Frame

namespace QueryBar.Bar

variable {b : Bar} {text : String} {q : Inquiry}

/-- What a search depends on in the state that the bar is in. -/
def context (b : Bar) : SearchContext where
  config := b.config
  function := b.function
  matchers := b.matchers
  allowFunctions := b.box.allowFunctions

/-- What is searched for when the bar takes a new text, if anything. -/
def inquiry? (b : Bar) (text : String) : Option Inquiry := b.box.inquiry? b.surroundings text

/-- The search for a text is made in the state that the bar is in, at the next count. -/
theorem of_inquiry?_eq_some (h : b.inquiry? text = some q) :
    let tokens := Tokens.ofText b.config b.function text
    (tokens.freeText || tokens.isEmpty) = false ∧ tokens.bracket = none
      ∧ q = ⟨b.context, tokens.remainder, tokens.operator, tokens.comparison,
          b.generation.advance⟩ := by
  have hbox := EditBox.of_inquiry?_eq_some h
  exact hbox

theorem config_of_inquiry (h : b.inquiry? text = some q) : q.context.config = b.config := by
  obtain ⟨-, -, rfl⟩ := of_inquiry?_eq_some h
  rfl

/-- A text without a bracket that is not searched for is free text or has empty tokens. -/
theorem of_inquiry?_eq_none (h : b.inquiry? text = none)
    (hbracket : (Tokens.ofText b.config b.function text).bracket = none) :
    ((Tokens.ofText b.config b.function text).freeText
      || (Tokens.ofText b.config b.function text).isEmpty) = true := by
  rcases EditBox.of_inquiry?_eq_none h with hplain | ⟨bracket, hsome⟩
  · exact hplain
  · have habsurd : none = some bracket := hbracket.symm.trans hsome
    simp at habsurd

/-- To pick is to type what is composed. -/
theorem compose_eq_input (b : Bar) (operator : Option Operator) (comparison : Option String) :
    b.compose operator comparison = b.input (b.box.composedText operator comparison) := rfl

/-! ### Texts -/

theorem box_foldl_heed_changing (edited : Option String) {notices : List Notice}
    (h : ∀ n ∈ notices, n = .changing) (b : Bar) :
    (notices.foldl (heed edited) b).box = b.box := by
  induction notices generalizing b with
  | nil => rfl
  | cons n rest ih =>
      have hbox : (heed edited b n).box = b.box := by
        rw [h n (by simp)]
        cases edited <;> rfl
      rw [List.foldl_cons, ih (fun n hn => h n (by simp [hn])), hbox]

theorem config_input (b : Bar) (text : String) : (b.input text).1.config = b.config :=
  (follows_takeTurn b (b.box.typeText b.surroundings b.keys text)).config

/-- **A text that is searched for is shown, and its requests are handed out.** -/
theorem input_of_inquiry (h : b.inquiry? text = some q) :
    (b.input text).2 = q.findings.pending ∧ q.ShownBy [] (b.input text).1.box := by
  obtain ⟨hanswer, hshown, hnotices⟩ := EditBox.typeText_of_inquiry b.keys h
  refine ⟨hanswer, ?_⟩
  have hbox : (b.input text).1.box = (b.box.typeText b.surroundings b.keys text).box :=
    box_foldl_heed_changing _ hnotices _
  rw [hbox]
  exact hshown

/-- **Any other text ends the search, and nothing is handed out.** -/
theorem input_of_no_inquiry (h : b.inquiry? text = none) :
    (b.input text).2 = [] ∧ b.box.Closes (b.input text).1.box := by
  obtain ⟨hanswer, hcloses⟩ := EditBox.typeText_of_no_inquiry b.keys h
  have hturn := follows_takeTurn b (b.box.typeText b.surroundings b.keys text)
  exact ⟨hanswer, hcloses.trans_follows hturn.box⟩

/-! ### Answers -/

/-- An answer to a request of another generation changes nothing, and that is said. -/
theorem takeAnswer_of_stale {a : LookupAnswer}
    (h : ¬ (a.owner = b.generation.owner ∧ a.token = b.generation.current)) :
    b.takeAnswer a = (b, false) := by
  unfold takeAnswer
  rw [EditBox.takeAnswer_of_stale b.config h]

theorem generation_takeAnswer (b : Bar) (a : LookupAnswer) :
    (b.takeAnswer a).1.generation = b.generation :=
  EditBox.generation_takeAnswer b.box b.config a

theorem shownBy_takeAnswer {answers : List LookupAnswer} {a : LookupAnswer}
    (h : q.ShownBy answers b.box) (hconfig : q.context.config = b.config)
    (ha : a.owner = q.generation.owner ∧ a.token = q.generation.current) :
    q.ShownBy (answers ++ [a]) (b.takeAnswer a).1.box := by
  unfold takeAnswer
  rw [← hconfig]
  exact EditBox.shownBy_takeAnswer h ha

/-- Answers to requests of the inquiry are put in one after the other. -/
theorem shownBy_takeAll {answers more : List LookupAnswer} (h : q.ShownBy answers b.box)
    (hconfig : q.context.config = b.config)
    (hmore : ∀ a ∈ more, a.owner = q.generation.owner ∧ a.token = q.generation.current) :
    q.ShownBy (answers ++ more) (b.takeAll more).1.box := by
  induction more generalizing b answers with
  | nil =>
      rw [List.append_nil]
      exact h
  | cons a rest ih =>
      have hstep := shownBy_takeAnswer h hconfig (hmore a (by simp))
      have hrest := ih hstep hconfig fun r hr => hmore r (by simp [hr])
      rw [List.append_assoc] at hrest
      exact hrest

/-- When a text has been typed and some of its requests have been answered, in any order, the box
shows its search with the answers put in. -/
theorem shownBy_answered (h : b.inquiry? text = some q) (items : LookupRequest → List Item)
    {rs : List LookupRequest} (hrs : ∀ r ∈ rs, r ∈ q.findings.pending) :
    q.ShownBy (rs.map (·.answeredBy items))
      ((b.input text).1.takeAll (rs.map (·.answeredBy items))).1.box := by
  obtain ⟨-, hshown⟩ := input_of_inquiry h
  have hconfig : q.context.config = (b.input text).1.config := by
    rw [config_input, config_of_inquiry h]
  have hcurrent : ∀ a ∈ rs.map (·.answeredBy items),
      a.owner = q.generation.owner ∧ a.token = q.generation.current := by
    intro a ha
    obtain ⟨r, hr, rfl⟩ := List.mem_map.mp ha
    exact SearchContext.generation_of_mem_pending (hrs r hr)
  have hall := shownBy_takeAll hshown hconfig hcurrent
  rw [List.nil_append] at hall
  exact hall

end QueryBar.Bar
