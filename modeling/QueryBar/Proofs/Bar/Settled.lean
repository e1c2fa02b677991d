/-
Typing and waiting comes to what is offered.

There are two ways from a text to suggestions: an offer, which is worked out at once and
waits for all services, and the open box, into which answers are put one after the other.
They share the search itself, but not what comes before it: the box looks at blank texts
where an offer only looks at texts that are too short, and the requests of the box carry
its own count.  Neither makes a difference once all answers are in.
-/
import QueryBar.Proofs.Bar.Typing
import QueryBar.Proofs.Tokens

namespace QueryBar.Bar

/-- The bar after a text has been typed and all services have answered, in the order in which
they were asked. -/
def settled (b : Bar) (text : String) : Bar :=
  ((b.input text).1.takeAll ((b.input text).2.map (·.answered))).1

variable {b : Bar} {text : String} {q : Inquiry}

/-! ### Texts that are searched for -/

/-- After all answers the box shows the inquiry with all of them put in. -/
theorem shownBy_settled (h : b.inquiry? text = some q) :
    q.ShownBy (q.findings.pending.map (·.answered)) (b.settled text).box := by
  obtain ⟨hrequests, -⟩ := input_of_inquiry h
  unfold settled
  rw [hrequests, LookupRequest.answered_eq_answeredBy]
  exact shownBy_answered h _ fun _ hr => hr

/-- An offer makes the same search, at a count of its own. -/
theorem settledOffer_of_inquiry (h : b.inquiry? text = some q) :
    (b.context.settledOffer text).buckets = q.findings.settled b.config := by
  obtain ⟨hplain, hbracket, rfl⟩ := of_inquiry?_eq_some h
  have hsearched : ((Tokens.ofText b.context.config b.context.function text).freeText
      || (Tokens.ofText b.context.config b.context.function text).bracket.isSome) = false := by
    rw [Bool.or_eq_false_iff] at hplain ⊢
    exact ⟨hplain.1, Option.isSome_eq_false_iff.mpr (Option.isNone_iff_eq_none.mpr hbracket)⟩
  rw [SearchContext.settledOffer_of_searched hsearched]
  exact SearchContext.settled_find b.context ..

/-! ### Texts that are not -/

/-- Of free text and of texts with empty tokens nothing is offered. -/
theorem settledOffer_of_plain
    (hplain : ((Tokens.ofText b.context.config b.context.function text).freeText
      || (Tokens.ofText b.context.config b.context.function text).isEmpty) = true) :
    (b.context.settledOffer text).buckets = [] := by
  cases haside : ((Tokens.ofText b.context.config b.context.function text).freeText
      || (Tokens.ofText b.context.config b.context.function text).bracket.isSome) with
  | true => exact SearchContext.settledOffer_of_aside haside
  | false =>
      rw [(Bool.or_eq_false_iff.mp haside).1, Bool.false_or] at hplain
      have hshort : b.context.tooShort
          (Tokens.ofText b.context.config b.context.function text).remainder := by
        unfold Tokens.isEmpty at hplain
        rw [Bool.and_eq_true] at hplain
        exact Or.inl (by simpa using hplain.2)
      rw [SearchContext.settledOffer_of_searched haside, SearchContext.find_of_tooShort hshort]
      rfl

/-! ### The two ways agree -/

/-- **After a text without a bracket has been typed and all services have answered, the box shows
what is offered for the text**, and unless the text is blank or free text it has been taken apart
in the same way. -/
theorem settled_agrees_with_offer (b : Bar) (text : String)
    (hbracket : (Tokens.ofText b.config b.function text).bracket = none) :
    let offer := b.context.settledOffer text
    let box := (b.settled text).box
    box.buckets = offer.buckets ∧ box.total = offer.buckets.total ∧
      (Text.trim text.toList ≠ [] → offer.tokens.freeText = false →
        box.operator = offer.tokens.operator ∧ box.comparison = offer.tokens.comparison ∧
          box.matchText = some offer.tokens.remainder) := by
  have htokens := b.context.tokens_settledOffer text
  have htotal : ∀ bs, (b.settled text).box.buckets = bs → (b.settled text).box.total = bs.total :=
    fun bs hbs => congrArg Buckets.total hbs
  cases h : b.inquiry? text with
  | some q =>
      have hshown := shownBy_settled h
      have hoffer := settledOffer_of_inquiry h
      obtain ⟨-, -, rfl⟩ := of_inquiry?_eq_some h
      have hbuckets := hshown.buckets.trans hoffer.symm
      refine ⟨hbuckets, htotal _ hbuckets, ?_⟩
      intro _ _
      rw [htokens]
      exact ⟨hshown.operator, hshown.comparison, hshown.matchText⟩
  | none =>
      have hplain := of_inquiry?_eq_none h hbracket
      obtain ⟨hrequests, hcloses⟩ := input_of_no_inquiry h
      have hbuckets : (b.settled text).box.buckets = (b.context.settledOffer text).buckets := by
        rw [settledOffer_of_plain hplain]
        unfold settled
        rw [hrequests]
        exact hcloses.buckets
      refine ⟨hbuckets, htotal _ hbuckets, ?_⟩
      intro hblank hfree
      rw [htokens] at hfree
      have hfree' : (Tokens.ofText b.config b.function text).freeText = false := hfree
      rw [hfree', Bool.false_or] at hplain
      exact absurd (Tokens.blank_of_isEmpty hplain hfree') hblank

/-- A bar with a list of texts and a service that completes what was typed. -/
def completing : Bar :=
  Bar.new
    (Config.ofSources
      [{ name := "colour", title := "Colours", comparisons := ["="]
         definitions := [.list { supply := .items [.text "red", .text "blue"] }] },
       { name := "shade", title := "Shades", comparisons := ["="], precedence := some 1
         definitions := [.list { supply := .service ⟨fun q => [.text (q.text ++ "dish")],
           fun _ => 0⟩ }] }])
    0

theorem settled_agrees_with_offer_completing :
    (Tokens.ofText completing.config completing.function "or =red").bracket = none ∧
      (completing.settled "or =red").box.buckets
        = (completing.context.settledOffer "or =red").buckets ∧
      (completing.settled "or =red").box.buckets.map (fun b => (b.title, b.options.map (·.text)))
        = [("Shades", ["reddish"]), ("Colours", ["red"])] ∧
      (completing.settled "or =red").box.matchText = some "red" := by
  have hbracket : (Tokens.ofText completing.config completing.function "or =red").bracket
      = none := by decide
  obtain ⟨hbuckets, -, -⟩ := settled_agrees_with_offer completing "or =red" hbracket
  exact ⟨hbracket, hbuckets, by decide, by decide⟩

end QueryBar.Bar
