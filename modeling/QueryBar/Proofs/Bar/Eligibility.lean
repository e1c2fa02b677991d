/-
Whether what is offered may be chosen.

What the open box offers was found under the function that was active when the text was typed.
It is still right as long as that function is active (`Watch.Current`): the search then asked
only sources that are eligible now.  Operations that set a function, or that hand out the row,
empty the box first.  The function can be dropped from under an open search, though, by
removing the last matcher where there is none, and by removing all of them while no matcher is
edited (`Bar.Drops`): the box goes on offering what has been found for the function, and takes in
answers to its requests.
-/
import QueryBar.Proofs.Bar.Limits
import QueryBar.Proofs.Bar.Staleness
import QueryBar.Proofs.Bar.Upkeep
import QueryBar.Proofs.Search.Origins

namespace QueryBar

namespace Bar

variable {b b' : Bar} {o : Suggestion} {inserting : Bool}

/-- The suggestion is from a source that may be chosen from in the state that the bar is in. -/
def Permits (b : Bar) (o : Suggestion) : Prop :=
  ∃ s ∈ b.config.sources, s.name = o.source ∧ s.eligible b.function = true

/-- All that is offered may be chosen, or is the name of a function. -/
def OffersEligible (b : Bar) : Prop :=
  ∀ o, b.box.buckets.Shows o → o.isFunction = false → b.Permits o

/-- Of all that is offered, everything but function names is from sources that need no function. -/
def OffersPlain (b : Bar) : Prop :=
  ∀ o, b.box.buckets.Shows o → o.isFunction = false →
    ∃ s ∈ b.config.sources, s.name = o.source ∧ s.functional = false

/-- Without a function, the sources that need none are the ones that may be chosen from. -/
theorem offersEligible_iff_of_no_function (h : b.function = none) :
    b.OffersEligible ↔ b.OffersPlain := by
  have hpermits : ∀ o, b.Permits o ↔ ∃ s ∈ b.config.sources, s.name = o.source ∧
      s.functional = false := by
    intro o
    unfold Permits Source.eligible
    rw [h]
    simp
  unfold OffersEligible OffersPlain
  simp only [hpermits]

/-- The function goes from under an open search. -/
structure Strands (b : Bar) (operation : Operation) : Prop where
  function : b.function.isSome = true
  search : b.box.matchText.isSome = true
  drops : b.Drops operation

/-- What is committed was offered, and is no function name. -/
theorem Commits.offered (h : b.Commits o inserting b') :
    b.box.buckets.Shows o ∧ o.isFunction = false := by
  obtain ⟨⟨slot, hoption⟩, turn, hturn, -⟩ := h.settles
  exact ⟨Buckets.shows_of_get? hoption, hturn.plain⟩

end Bar

namespace Watch

variable {w : Watch} {operation : Operation}

/-- The function under which the open search was made is still active. -/
def Current (w : Watch) : Prop := ∀ q, w.inquiry = some q → q.context.function = w.bar.function

theorem current_of_no_search (h : w.bar.box.matchText = none) : w.Current := by
  intro q hq
  unfold inquiry at hq
  rw [h] at hq
  contradiction

theorem Reachable.bar (h : Reachable w) : w.bar.Reachable := by
  induction h with
  | start config owner => exact .new config owner
  | equip _ hb ih => exact .equip ih hb
  | step _ operation _ ih =>
      rw [bar_step]
      exact .step ih operation

/-! ### What is offered -/

/-- What is offered comes of the search that is open. -/
theorem Sound.offers (h : w.Sound) {o : Suggestion} (ho : w.bar.box.buckets.Shows o) :
    ∃ q, w.inquiry = some q ∧ q.context.config = w.bar.config ∧ q.context.Offers o := by
  cases hq : w.inquiry with
  | none =>
      rw [(h.closed hq).2] at ho
      obtain ⟨b, hb, -⟩ := ho
      contradiction
  | some q =>
      obtain ⟨hshown, hconfig, hgiven⟩ := h.shown q hq
      rw [hshown.buckets] at ho
      refine ⟨q, rfl, hconfig, SearchContext.offers_of_shown ?_ ho⟩
      intro a ha
      obtain ⟨r, hr, hanswers⟩ := h.landed a ha
      rw [hgiven] at hr
      exact ⟨r, hr, hanswers.2.2.1⟩

/-- Under the function of the search all that is offered may be chosen. -/
theorem Sound.offersEligible (h : w.Sound) (hcurrent : w.Current) : w.bar.OffersEligible := by
  intro o ho hplain
  obtain ⟨q, hq, hconfig, ⟨-, hfunction⟩ | ⟨s, hs, heligible, hname⟩⟩ := h.offers ho
  · rw [hplain] at hfunction
    contradiction
  · rw [hcurrent q hq] at heligible
    exact ⟨s, hconfig ▸ hs, hname, heligible⟩

/-! ### Whether the search stays current -/

/-- The search that is open once a text has been typed is the one for that text. -/
theorem inquiry?_of_typed {text : String} {q : Inquiry} (h : (w.typed text).inquiry = some q) :
    w.bar.inquiry? text = some q := by
  unfold inquiry at h
  split at h
  · exact h
  · contradiction

theorem current_typed (w : Watch) (text : String) : (w.typed text).Current := by
  intro q hq
  obtain ⟨-, -, hfor⟩ := Bar.of_inquiry?_eq_some (inquiry?_of_typed hq)
  rw [hfor]
  exact (Bar.carries_input w.bar text).function.symm

/-- **The function only ever leaves a search behind when it is dropped.** -/
theorem step_current_cases (h : Reachable w) (operation : Operation) :
    (w.step operation).Current ∨ (w.step operation).inquiry = w.inquiry ∧
      ((w.step operation).bar.function = w.bar.function ∨
        w.bar.Drops operation ∧ (w.step operation).bar.function = none) := by
  have hbar := w.bar_step operation
  rcases w.step_cases operation with ⟨text, hstep⟩ | ⟨a, -, hstep⟩ | ⟨b, hstep, hfollows⟩
  · rw [hstep]
    exact Or.inl (w.current_typed text)
  · obtain ⟨bs, hbox, -⟩ := w.bar.box.takeAnswer_eq w.bar.config a
    rw [hstep]
    refine Or.inr ⟨?_, Or.inl rfl⟩
    show (if (w.bar.takeAnswer a).1.box.matchText.isSome then w.asked else none) = w.inquiry
    rw [show (w.bar.takeAnswer a).1.box.matchText = w.bar.box.matchText from hbox.matchText]
    rfl
  · obtain ⟨f, hcarries, haccounts⟩ := Bar.carries_perform w.bar operation
    rw [← hbar, hstep] at hcarries haccounts
    rw [hstep]
    have hended : b.box.matchText = none → Current { w with bar := b } :=
      fun hnone => current_of_no_search hnone
    rcases hfollows.box with hkeeps | hcloses
    · have hinquiry : inquiry { w with bar := b } = w.inquiry := by
        unfold inquiry
        rw [hkeeps.matchText]
      rcases haccounts with hsame | hcloses | hempty | ⟨hdrops, hnone⟩
      · exact Or.inr ⟨hinquiry, Or.inl (hcarries.function.trans hsame)⟩
      · exact Or.inl (hended hcloses.matchText)
      · refine Or.inl (hended ?_)
        rw [hkeeps.matchText, ← Option.not_isSome_iff_eq_none]
        intro hsearch
        rw [(Bar.inOrder_reachable h.bar).legible hsearch] at hempty
        contradiction
      · exact Or.inr ⟨hinquiry, Or.inr ⟨hdrops, hcarries.function.trans hnone⟩⟩
    · exact Or.inl (hended hcloses.matchText)

/-- A search that is left behind was made for a function, and there is none any more. -/
theorem current_or_dropped (h : Reachable w) : w.Current ∨ w.bar.function = none := by
  induction h with
  | start config owner => exact Or.inr rfl
  | @equip w b h hb ih =>
      have hfunction : b.function = w.bar.function := by cases hb <;> rfl
      have htext : b.box.matchText = w.bar.box.matchText := by
        cases hb with
        | matchers row => exact (Bar.keeps_placeBox _).matchText
        | keys keys => rfl
        | validator check => rfl
      refine ih.imp (fun hcurrent q hq => ?_) hfunction.trans
      unfold inquiry at hq
      rw [htext] at hq
      exact (hcurrent q hq).trans hfunction.symm
  | @step w h operation hadmits ih =>
      rcases step_current_cases h operation with hcurrent | ⟨hinquiry, hsame | ⟨-, hnone⟩⟩
      · exact Or.inl hcurrent
      · refine ih.imp (fun hcurrent q hq => ?_) hsame.trans
        exact (hcurrent q (hinquiry ▸ hq)).trans hsame.symm
      · exact Or.inr hnone

/-- **A search stays current unless the function goes from under it.** -/
theorem current_step_iff (h : Reachable w) (hcurrent : w.Current) :
    (w.step operation).Current ↔ ¬ w.bar.Strands operation := by
  constructor
  · intro hafter hstrands
    obtain ⟨hsome, hsearch, hdrops⟩ := hstrands
    have hlegible := (Bar.inOrder_reachable h.bar).legible hsearch
    obtain ⟨hnone, hkeeps⟩ := hdrops.perform hlegible
    have hstep : w.step operation = { w with bar := (w.bar.perform operation).1 } := by
      cases hdrops <;> rfl
    have hinquiry : (w.step operation).inquiry = w.inquiry := by
      rw [hstep]
      unfold inquiry
      rw [hkeeps.matchText]
    cases hq : w.inquiry with
    | none =>
        rw [((sound_reachable h).closed hq).1] at hsearch
        contradiction
    | some q =>
        have hgone := hafter q (hinquiry.trans hq)
        rw [hcurrent q hq, bar_step, hnone] at hgone
        rw [hgone] at hsome
        contradiction
  · intro hkept
    rcases step_current_cases h operation with hafter | ⟨hinquiry, hsame | ⟨hdrops, hnone⟩⟩
    · exact hafter
    · intro q hq
      exact (hcurrent q (hinquiry ▸ hq)).trans hsame.symm
    · intro q hq
      rw [hinquiry] at hq
      rw [hnone, hcurrent q hq, ← Option.not_isSome_iff_eq_none]
      intro hsome
      refine hkept ⟨hsome, ?_, hdrops⟩
      unfold inquiry at hq
      split at hq
      · assumption
      · contradiction

/-- **When all that is offered may be chosen**: as long as the function is active under which it was
found, and otherwise only if nothing is offered that needs a function at all.  In a state of the
first kind whatever is committed may be chosen, and the next state is of that kind as well unless
the function is dropped from under an open search. -/
theorem offers_eligible_iff (h : Reachable w) :
    (w.bar.OffersEligible ↔ w.Current ∨ w.bar.OffersPlain) ∧
      (w.Current → ∀ o inserting b, w.bar.Commits o inserting b → w.bar.Permits o) ∧
      (w.Current → ∀ operation,
        (w.step operation).Current ↔ ¬ w.bar.Strands operation) := by
  have hsound := sound_reachable h
  refine ⟨?_, ?_, fun hcurrent operation => current_step_iff h hcurrent⟩
  · constructor
    · intro heligible
      refine (current_or_dropped h).imp_right fun hnone => ?_
      exact (Bar.offersEligible_iff_of_no_function hnone).mp heligible
    · rintro (hcurrent | hplain)
      · exact hsound.offersEligible hcurrent
      · rcases current_or_dropped h with hcurrent | hnone
        · exact hsound.offersEligible hcurrent
        · exact (Bar.offersEligible_iff_of_no_function hnone).mpr hplain
  · intro hcurrent o inserting b hcommits
    obtain ⟨hshown, hplain⟩ := hcommits.offered
    exact hsound.offersEligible hcurrent o hshown hplain

/-- The sides of a trade, which only the function of that name asks for. -/
def sides : Source where
  name := "side"
  title := "Sides"
  comparisons := ["="]
  functional := true
  definitions := [.list { supply := .items [.text "buy", .text "sell"] }]

/-- What is offered for a side. -/
def buy : Suggestion := { text := "buy", value := .text "buy", source := "side" }

/-- The function has been chosen, and a side has been typed. -/
def trading : Watch :=
  (((start
    { Config.ofSources [sides] with functions := [{ name := "Trade", required := ["side"] }] }
    0).step (.input "tra")).step (.key { key := .enter })).step (.input "buy")

/-- The function is removed with the last matcher, as there is none. -/
def dropping : Operation := .key { key := .backspace, shift := true }

theorem reachable_trading : Reachable trading :=
  .step (.step (.step (.start _ 0) (.input "tra") trivial) (.key { key := .enter }) trivial)
    (.input "buy") trivial

theorem offers_eligible_iff_trading :
    Reachable trading ∧ trading.Current ∧ trading.bar.box.buckets.Shows buy ∧
      trading.bar.OffersEligible ∧ trading.bar.Strands dropping ∧
      ¬ (trading.step dropping).Current := by
  have hcurrent : trading.Current := current_typed _ "buy"
  have hstrands : trading.bar.Strands dropping :=
    ⟨by decide +kernel, by decide +kernel, .lastByKey _ rfl rfl (by decide +kernel)⟩
  obtain ⟨heligible, -, hkept⟩ := offers_eligible_iff reachable_trading
  refine ⟨reachable_trading, hcurrent, by decide +kernel, heligible.mpr (Or.inl hcurrent),
    hstrands, ?_⟩
  exact fun hafter => (hkept hcurrent dropping).mp hafter hstrands

/-- **A side is offered without the function that it needs, and can be committed.** -/
theorem offers_ineligible_dropped :
    let w := trading.step dropping
    Reachable w ∧ w.bar.function.isNone = true ∧ w.bar.box.buckets.Shows buy ∧
      ¬ w.bar.OffersEligible ∧ ¬ w.bar.Permits buy ∧
      w.bar.Commits buy false (w.bar.choose 0 false).1 ∧
      (w.bar.choose 0 false).1.matchers.map (·.source) = ["side"] := by
  intro w
  have hshown : w.bar.box.buckets.Shows buy := by decide +kernel
  have hdenied : ¬ w.bar.Permits buy := by
    unfold Bar.Permits
    decide +kernel
  refine ⟨reachable_trading.step dropping trivial, by decide +kernel, hshown, ?_, hdenied, ?_,
    by decide +kernel⟩
  · exact fun heligible => hdenied (heligible buy hshown rfl)
  · exact .chosen 0 (by decide +kernel) (by decide +kernel)

end Watch

end QueryBar
