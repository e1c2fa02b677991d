/-
What is said against a suggestion that is chosen.

Two are asked: the box whether the source has the comparison, and the row whether the candidate fits
in.  The row asks the first question as well, unless the comparison is a bracket or the mark of a
free text, which it never objects to.  So the verdict of the row alone decides whether the candidate
is committed, except for a mark that the source does not have (`choose_follows_verdict_iff`).

A box that has been typed into compares with what has been typed, or with the comparison that goes
without saying.  Only a box that shows a bracket or a free text compares with a mark where neither
of these is one, and it offers nothing that was asked for.

Whatever is said, it is shown, and that is all that changes apart from the key that was drawn.
-/
import QueryBar.Proofs.Bar.Composing
import QueryBar.Proofs.Bar.Limits

namespace QueryBar

/-- Neither what can be typed for a comparison nor the one that goes without saying is a bracket or
the mark of a free text. -/
def Config.Unmistakable (c : Config) : Prop :=
  ∀ mark ∈ [Bracket.opening.symbol, Bracket.closing.symbol, freeTextMark],
    mark ≠ c.defaultComparison ∧ mark ∉ c.comparisons

instance (c : Config) : Decidable c.Unmistakable := inferInstanceAs (Decidable (∀ mark ∈ _, _))

/-- A matcher that compares with a bracket or the mark has one of these for its comparison. -/
theorem Matcher.comparison_mem_of_mark {m : Matcher} (h : (m.isBracket || m.isFreeText) = true) :
    m.comparison ∈ [Bracket.opening.symbol, Bracket.closing.symbol, freeTextMark] := by
  unfold isBracket bracket? Bracket.ofSymbol? isFreeText at h
  simp only [List.mem_cons, List.not_mem_nil, or_false]
  rcases (Bool.or_eq_true ..).mp h with hbracket | hfree
  · split at hbracket
    · rename_i hopening
      exact Or.inl hopening
    · split at hbracket
      · rename_i hclosing
        exact Or.inr (Or.inl hclosing)
      · contradiction
  · exact Or.inr (Or.inr (beq_iff_eq.mp hfree))

namespace Bar

variable {b b' : Bar} {o : Suggestion} {s : Source} {m : Matcher} {slot : Nat} {insert : Bool}
  {verdict : Option String} {message : String}

/-! ### What is asked -/

/-- What the row says against the candidate that a suggestion is to become. -/
def verdict? (b : Bar) (o : Suggestion) (insert : Bool) : Option String :=
  Row.objection? b.config (b.candidateFor o insert) b.matchers (if insert then none else b.active)

/-- The row says nothing against a comparison that the source of the matcher does not have, for it
is a bracket or the mark of a free text. -/
def Overlooks (b : Bar) (m : Matcher) : Prop :=
  (m.isBracket || m.isFreeText) = true ∧
    ∃ s, b.config.source? m.source = some s ∧ s.allows m.comparison = false

/-- The refusal is shown, and nothing else has changed for anyone to see. -/
structure Refuses (b b' : Bar) (message : String) : Prop where
  error : b'.box.error = some message
  matchers : b'.matchers = b.matchers
  active : b'.active = b.active
  function : b'.function = b.function
  unbalanced : b'.unbalanced = b.unbalanced
  text : b'.box.text = b.box.text
  operator : b'.box.operator = b.box.operator
  comparison : b'.box.comparison = b.box.comparison
  matchText : b'.box.matchText = b.box.matchText
  buckets : b'.box.buckets = b.box.buckets
  highlighted : b'.box.highlighted = b.box.highlighted
  generation : b'.generation = b.generation
  told : b'.told = b.told

/-- Choosing the slot does what the verdict says: without one the candidate is committed, and any
other is refused in these words. -/
structure Obeys (b : Bar) (slot : Nat) (insert : Bool) (verdict : Option String) : Prop where
  committed : (b.choose slot insert).2 = .committed ↔ verdict = none
  refused : ∀ message, verdict = some message →
    (b.choose slot insert).2 = .handled ∧ b.Refuses (b.choose slot insert).1 message

/-- What is said against the candidate, by the box or else by the row. -/
def decision? (b : Bar) (o : Suggestion) (insert : Bool) : Option String :=
  ((Choice.suggestion o).objection? b.config (b.candidateFor o insert)).or (b.verdict? o insert)

end Bar

/-! ### What is done -/

namespace EditBox

variable {e : EditBox} {around : Surroundings} {keys : KeySupply} {o : Suggestion} {insert : Bool}
  {message : String}

/-- What the box or else its owner objects to is shown, and nothing is wished for. -/
theorem commit_of_objection
    (h : ((Choice.suggestion o).objection? around.config
        (e.candidateFor around.config keys o insert)).or
      (around.objection? (e.candidateFor around.config keys o insert) insert) = some message) :
    ∃ asked,
      (asked = [] ∨ asked = [.consulted (e.candidateFor around.config keys o insert) insert]) ∧
      e.commit around keys (.suggestion o) insert =
        ⟨{ e with error := some message }, (e.takeKey insert keys).2, asked, .handled⟩ := by
  unfold commit
  unfold candidateFor at h ⊢
  dsimp only at h ⊢
  split
  · rename_i objection hchoice
    rw [hchoice, Option.some_or] at h
    obtain rfl := Option.some.inj h
    exact ⟨[], Or.inl rfl, rfl⟩
  · rename_i hchoice
    rw [hchoice, Option.none_or] at h
    rw [h]
    exact ⟨_, Or.inr rfl, rfl⟩

/-- What nobody objects to is committed. -/
theorem answer_commit_of_no_objection
    (h : ((Choice.suggestion o).objection? around.config
        (e.candidateFor around.config keys o insert)).or
      (around.objection? (e.candidateFor around.config keys o insert) insert) = none) :
    (e.commit around keys (.suggestion o) insert).answer = .committed := by
  obtain ⟨hchoice, howner⟩ := Option.or_eq_none_iff.mp h
  unfold commit
  unfold candidateFor at hchoice howner
  dsimp only at hchoice howner ⊢
  rw [hchoice, howner]
  dsimp only
  split <;> rfl

end EditBox

namespace Bar

variable {b b' : Bar} {o : Suggestion} {s : Source} {m : Matcher} {slot : Nat} {insert : Bool}
  {verdict : Option String} {message : String}

/-- A suggestion that is chosen is committed by the box. -/
theorem choose_suggestion (hslot : b.box.buckets.get? slot = some o)
    (hplain : o.isFunction = false) :
    b.choose slot insert =
      b.takeTurn (b.box.commit b.surroundings b.keys (.suggestion o) insert) := by
  unfold choose EditBox.select
  rw [hslot]
  dsimp only
  rw [hplain, if_neg Bool.false_ne_true]

/-- **Choosing a suggestion does what has been decided.** -/
theorem obeys_decision (hvalidator : b.validator = none)
    (hslot : b.box.buckets.get? slot = some o) (hplain : o.isFunction = false) :
    b.Obeys slot insert (b.decision? o insert) := by
  have hasked : ((Choice.suggestion o).objection? b.surroundings.config
        (b.box.candidateFor b.surroundings.config b.keys o insert)).or
      (b.surroundings.objection? (b.box.candidateFor b.surroundings.config b.keys o insert)
        insert) = b.decision? o insert := by
    unfold surroundings decision? verdict? candidateFor
    dsimp only
    rw [hvalidator, Option.bind_none, Option.or_none]
  have hrefused : ∀ message, b.decision? o insert = some message →
      (b.choose slot insert).2 = .handled ∧ b.Refuses (b.choose slot insert).1 message := by
    intro message hdecided
    obtain ⟨asked, hnotices, hcommit⟩ := EditBox.commit_of_objection (hasked.trans hdecided)
    rw [choose_suggestion hslot hplain, hcommit]
    rcases hnotices with rfl | rfl
    · exact ⟨rfl, by constructor <;> rfl⟩
    · exact ⟨rfl, by constructor <;> rfl⟩
  refine ⟨⟨fun hcommitted => ?_, fun hdecided => ?_⟩, hrefused⟩
  · cases hdecided : b.decision? o insert with
    | none => rfl
    | some message =>
        rw [(hrefused message hdecided).1] at hcommitted
        contradiction
  · rw [choose_suggestion hslot hplain]
    exact EditBox.answer_commit_of_no_objection (hasked.trans hdecided)

/-- What is done obeys one verdict only. -/
theorem Obeys.unique {verdict' : Option String} (h : b.Obeys slot insert verdict)
    (h' : b.Obeys slot insert verdict') : verdict = verdict' := by
  cases verdict with
  | none => exact (h'.committed.mp (h.committed.mpr rfl)).symm
  | some message =>
      obtain ⟨hhandled, hrefuses⟩ := h.refused message rfl
      cases verdict' with
      | none =>
          rw [h'.committed.mpr rfl] at hhandled
          contradiction
      | some message' => exact hrefuses.error.symm.trans (h'.refused message' rfl).2.error

/-! ### When the row alone decides -/

/-- What the box says against a suggestion's candidate is that its source does not have the
comparison. -/
theorem choiceObjection?_eq (b : Bar) (o : Suggestion) (insert : Bool) :
    (Choice.suggestion o).objection? b.config (b.candidateFor o insert) =
      (b.config.source? o.source).bind fun s =>
        if s.allows (b.candidateFor o insert).comparison then none
        else some (Row.illegalComparison (b.candidateFor o insert).comparison s.name) := by
  unfold Choice.objection?
  dsimp only
  cases b.config.source? o.source <;> rfl

/-- A comparison that the source has is left to the row. -/
theorem decision?_of_allows
    (h : ∀ s, b.config.source? o.source = some s →
      s.allows (b.candidateFor o insert).comparison = true) :
    b.decision? o insert = b.verdict? o insert := by
  unfold decision?
  rw [choiceObjection?_eq]
  cases hs : b.config.source? o.source with
  | none => rfl
  | some s =>
      rw [Option.bind_some, if_pos (h s hs)]
      rfl

/-- A comparison that the source does not have is objected to. -/
theorem decision?_of_not_allows (hs : b.config.source? o.source = some s)
    (h : s.allows (b.candidateFor o insert).comparison = false) :
    b.decision? o insert =
      some (Row.illegalComparison (b.candidateFor o insert).comparison s.name) := by
  unfold decision?
  rw [choiceObjection?_eq, hs, Option.bind_some, if_neg (by simp [h])]
  rfl

/-- **Box and row say the same, unless the row overlooks the comparison.** -/
theorem decision?_eq_verdict?_iff :
    b.decision? o insert = b.verdict? o insert ↔ ¬ b.Overlooks (b.candidateFor o insert) := by
  have hsource : (b.candidateFor o insert).source = o.source := rfl
  unfold Overlooks
  rw [hsource]
  cases hs : b.config.source? o.source with
  | none =>
      refine iff_of_true (decision?_of_allows fun s hsome => ?_) (by simp)
      rw [hs] at hsome
      contradiction
  | some s =>
      cases hallows : s.allows (b.candidateFor o insert).comparison with
      | true =>
          refine iff_of_true (decision?_of_allows fun t ht => ?_) ?_
          · obtain rfl := Option.some.inj (hs.symm.trans ht)
            exact hallows
          · rintro ⟨-, t, ht, hrefused⟩
            obtain rfl := Option.some.inj ht
            exact absurd (hallows.symm.trans hrefused) (by simp)
      | false =>
          have hdecided := decision?_of_not_allows hs hallows
          cases hmark : (b.candidateFor o insert).isBracket ||
              (b.candidateFor o insert).isFreeText with
          | true =>
              have hnone : b.verdict? o insert = none := if_pos hmark
              rw [hdecided, hnone]
              exact iff_of_false (by simp) (not_not_intro ⟨rfl, s, rfl, hallows⟩)
          | false =>
              refine iff_of_true ?_ (by simp)
              unfold verdict? Row.objection? Row.sourceObjection?
              rw [hdecided, hmark, if_neg Bool.false_ne_true, hsource, hs, Option.bind_some,
                hallows]
              rfl

end Bar

/-! ### What can come about -/

namespace Watch

variable {w : Watch} {o : Suggestion} {slot : Nat} {insert : Bool}

/-- **What is offered has been searched for, and the comparison is one that can be typed**, if
answers are given only where they were asked for. -/
theorem Reachable.comparison_configured (h : Reachable w) (hshown : w.bar.box.buckets ≠ [])
    {x : String} (hx : w.bar.box.comparison = some x) : x ∈ w.bar.config.comparisons := by
  have hsound := sound_reachable h
  cases hq : w.inquiry with
  | none => exact absurd (hsound.closed hq).2 hshown
  | some q =>
      obtain ⟨hbox, hconfig, -⟩ := hsound.shown q hq
      rw [← hconfig]
      exact (h.isFor q hq).writable.configured x (hbox.comparison.symm.trans hx)

/-- Nothing is overlooked of what has been searched for. -/
theorem Reachable.not_overlooks (h : Reachable w) (hconfig : w.bar.config.Unmistakable)
    (hslot : w.bar.box.buckets.get? slot = some o) :
    ¬ w.bar.Overlooks (w.bar.candidateFor o insert) := by
  rintro ⟨hmark, -⟩
  have hshown : w.bar.box.buckets ≠ [] := by
    rintro hnone
    rw [hnone] at hslot
    contradiction
  obtain ⟨hdefault, htyped⟩ := hconfig _ (Matcher.comparison_mem_of_mark hmark)
  have hcomparison : (w.bar.candidateFor o insert).comparison =
      w.bar.box.comparison.getD w.bar.config.defaultComparison := rfl
  rw [hcomparison] at hdefault htyped
  cases hx : w.bar.box.comparison with
  | none =>
      rw [hx] at hdefault
      exact hdefault rfl
  | some x =>
      rw [hx] at htyped
      exact htyped (h.comparison_configured hshown hx)

/-- **The verdict of the row decides whether a suggestion is committed**, exactly if the row does
not overlook a comparison that the source does not have; one that it overlooks is refused just the
same.  Where neither a bracket nor the mark can be typed for a comparison, nothing is overlooked as
long as answers are given only where they were asked for. -/
theorem choose_follows_verdict_iff (hvalidator : w.bar.validator = none)
    (hslot : w.bar.box.buckets.get? slot = some o) (hplain : o.isFunction = false) :
    (w.bar.Obeys slot insert (w.bar.verdict? o insert) ↔
        ¬ w.bar.Overlooks (w.bar.candidateFor o insert)) ∧
      (w.bar.Overlooks (w.bar.candidateFor o insert) → ∃ name,
        w.bar.Obeys slot insert
          (some (Row.illegalComparison (w.bar.candidateFor o insert).comparison name))) ∧
      (Reachable w → w.bar.config.Unmistakable →
        w.bar.Obeys slot insert (w.bar.verdict? o insert)) := by
  have hobeys : w.bar.Obeys slot insert (w.bar.decision? o insert) :=
    Bar.obeys_decision hvalidator hslot hplain
  have hiff : w.bar.Obeys slot insert (w.bar.verdict? o insert) ↔
      ¬ w.bar.Overlooks (w.bar.candidateFor o insert) := by
    rw [← Bar.decision?_eq_verdict?_iff]
    exact ⟨hobeys.unique, fun hsame => hsame ▸ hobeys⟩
  refine ⟨hiff, ?_, fun hreachable hconfig => hiff.mpr (hreachable.not_overlooks hconfig hslot)⟩
  rintro ⟨-, s, hs, hrefused⟩
  exact ⟨s.name, Bar.decision?_of_not_allows hs hrefused ▸ hobeys⟩

/-- A bar in which only one colour may be selected: the red one is edited, and green is offered. -/
def onlyRed : Watch :=
  ((((start (.ofSources [Bar.colours]) 0).step (.input "red")).step (.key { key := .enter })).step
    (.select 0)).step (.input "green")

/-- What is offered for green. -/
def green : Suggestion := { text := "green", value := .text "green", source := "colour" }

/-- Before the red one, green would be one too many. -/
theorem choose_follows_verdict_iff_onlyRed :
    let message := "Datasource (Colours) is limited to 1 items."
    onlyRed.bar.validator = none ∧ onlyRed.bar.box.buckets.get? 0 = some green ∧
      green.isFunction = false ∧ Reachable onlyRed ∧ onlyRed.bar.config.Unmistakable ∧
      onlyRed.bar.verdict? green true = some message ∧
      (onlyRed.bar.choose 0 true).2 = .handled ∧
      onlyRed.bar.Refuses (onlyRed.bar.choose 0 true).1 message := by
  intro message
  have hreachable : Reachable onlyRed :=
    .step (.step (.step (.step (.start (.ofSources [Bar.colours]) 0) (.input "red") trivial)
      (.key { key := .enter }) trivial) (.select 0) trivial) (.input "green") trivial
  have hslot : onlyRed.bar.box.buckets.get? 0 = some green := by decide +kernel
  have hplain : green.isFunction = false := by decide +kernel
  have hconfig : onlyRed.bar.config.Unmistakable := by decide +kernel
  have hverdict : onlyRed.bar.verdict? green true = some message := by decide +kernel
  obtain ⟨-, -, hfollows⟩ := choose_follows_verdict_iff (w := onlyRed) rfl hslot hplain
  have hobeys : onlyRed.bar.Obeys 0 true (onlyRed.bar.verdict? green true) :=
    hfollows hreachable hconfig
  exact ⟨rfl, hslot, hplain, hreachable, hconfig, hverdict, hobeys.refused message hverdict⟩

/-- A bar that edits a bracket, to which an answer has been given that nobody has asked for. -/
def unasked : Bar :=
  ((Bar.new (.ofSources [Bar.colours]) 0).withMatchers [.bracket "a" .opening .none]).run
    [.select 0, .takeAnswer ⟨0, 1, "colour", 0, [.text "green"]⟩]

/-- **A bracket that the source does not have is refused although the row says nothing against
it**: green would take the place of a bracket, and compare with it. -/
theorem choose_refuses_overlooked :
    unasked.Reachable ∧ unasked.validator = none ∧ unasked.config.Unmistakable ∧
      unasked.box.buckets.get? 0 = some green ∧ green.isFunction = false ∧
      unasked.verdict? green false = none ∧ (unasked.choose 0 false).2 = .handled ∧
      ¬ unasked.Obeys 0 false (unasked.verdict? green false) := by
  have hverdict : unasked.verdict? green false = none := by decide +kernel
  have hrefused : (unasked.choose 0 false).2 = .handled := by decide +kernel
  refine ⟨(Bar.Reachable.equip (.new ..) (.matchers _)).run _, rfl, by decide +kernel,
    by decide +kernel, by decide +kernel, hverdict, hrefused, fun hobeys => ?_⟩
  have hcommitted := hobeys.committed.mpr hverdict
  rw [hrefused] at hcommitted
  contradiction

end Watch

end QueryBar
