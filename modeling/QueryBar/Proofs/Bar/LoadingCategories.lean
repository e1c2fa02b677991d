/-
Categories that are seen to load.

Where lookups are waited for in view, every category with an awaited answer is there when the
requests are handed out.  It need not be there until the answer comes: the place is kept under
the title, and an empty answer gives it up for all services that answer into the category.  So it
takes two services for one title, in one source or in two, and nothing to be shown there when
the first of them finds nothing.

`WaitsForAnswers` says when this cannot happen for a text, and `loading_categories_stay_iff` that
it can in all other cases.
-/
import QueryBar.Proofs.Bar.ArrivalOrder
import QueryBar.Proofs.Search.Waiting

namespace QueryBar.Bar

/-- No category for the text can go while one of its answers is awaited, as the box shows it before
any of them has come. -/
def WaitsForAnswers (b : Bar) (text : String) : Prop :=
  ∀ title, Entry.Waits ((b.input text).1.box.buckets.bucket? title)
    (b.config.stakes title (b.input text).2)

variable {b : Bar} {text : String} {q : Inquiry}

theorem waitsForAnswers_of_no_inquiry (h : b.inquiry? text = none) : b.WaitsForAnswers text := by
  intro title
  rw [(input_of_no_inquiry h).1]
  exact Entry.waits_of_alone List.nodup_nil (by simp [Config.stakes])

theorem waitsForAnswers_iff (h : b.inquiry? text = some q) :
    b.WaitsForAnswers text ↔ ∀ title, Entry.Waits (q.findings.buckets.bucket? title)
      (b.config.stakes title q.findings.pending) := by
  obtain ⟨hrequests, hshown⟩ := input_of_inquiry h
  unfold WaitsForAnswers
  rw [hrequests, hshown.buckets]
  rfl

/-- **Where no two services answer into one category, every category waits**, for every text. -/
theorem waitsForAnswers_of_config (hcheck : b.config.check = .ok ())
    (htitles : ((b.config.sources.filter fun s =>
      s.eligible b.function && s.serviceCount != 0).map (·.title)).Nodup)
    (hone : ∀ s ∈ b.config.sources, s.eligible b.function = true → s.serviceCount ≤ 1)
    (text : String) : b.WaitsForAnswers text := by
  cases h : b.inquiry? text with
  | none => exact waitsForAnswers_of_no_inquiry h
  | some q =>
      rw [waitsForAnswers_iff h]
      obtain ⟨-, -, rfl⟩ := of_inquiry?_eq_some h
      exact SearchContext.waits_find (Config.nodup_names hcheck) htitles hone _ _

/-- **A loading category stays until its last answer has come, just when the categories for the text
wait.**  Lookups are waited for in view; then for every request for the text that has not been
answered, the source has its category, whichever others have been answered, in whatever order and
with whatever items. -/
theorem loading_categories_stay_iff (b : Bar) (text : String) (hcheck : b.config.check = .ok ())
    (hshow : b.config.showWhenSearching = true) :
    (∀ (items : LookupRequest → List Item) (r : LookupRequest) (rs : List LookupRequest),
      (r :: rs).Subperm (b.input text).2 → ∃ s ∈ b.config.sources, s.name = r.source ∧
        (b.arrived text items rs).HasPlace s.title)
      ↔ b.WaitsForAnswers text := by
  cases h : b.inquiry? text with
  | none =>
      refine iff_of_true ?_ (waitsForAnswers_of_no_inquiry h)
      intro items r rs hrs
      rw [(input_of_no_inquiry h).1] at hrs
      exact absurd (hrs.subset List.mem_cons_self) List.not_mem_nil
  | some q =>
      have hbuckets : ∀ (items : LookupRequest → List Item) (r : LookupRequest)
          (rs : List LookupRequest), (r :: rs).Subperm q.findings.pending →
            b.arrived text items rs
              = q.findings.buckets.withAnswers b.config (rs.map (·.answeredBy items)) :=
        fun items r rs hrs =>
          arrived_of_inquiry h fun r' hr' => hrs.subset (List.mem_cons_of_mem r hr')
      rw [waitsForAnswers_iff h, (input_of_inquiry h).1]
      obtain ⟨-, -, rfl⟩ := of_inquiry?_eq_some h
      refine Iff.trans ?_
        (SearchContext.awaited_have_places_iff (Config.nodup_names hcheck) hshow)
      constructor
      · intro hplaces items r rs hrs
        obtain ⟨s, hs, hname, hplace⟩ := hplaces items r rs hrs
        exact ⟨s, hs, hname, hbuckets items r rs hrs ▸ hplace⟩
      · intro hplaces items r rs hrs
        obtain ⟨s, hs, hname, hplace⟩ := hplaces items r rs hrs
        exact ⟨s, hs, hname, (hbuckets items r rs hrs).symm ▸ hplace⟩

/-! ### Categories that wait, and categories that do not -/

/-- A bar in whose view lookups are waited for. -/
def waiting (sources : List Source) : Bar :=
  Bar.new { Config.ofSources sources with showWhenSearching := true } 0

/-- A source that knows a colour and asks two services for more, and one that asks a third. -/
def knownColour : Bar :=
  waiting
    [{ name := "colour", title := "Colours", comparisons := ["="]
       definitions := [.list { supply := .items [.text "red"] }, served [] none, served [] none] },
     { name := "shade", title := "Shades", comparisons := ["="]
       definitions := [served [] none] }]

theorem waitsForAnswers_knownColour : knownColour.WaitsForAnswers "re" := by
  intro title
  by_cases htitle : title = "Colours"
  · -- The colour that is known has an origin of its own.
    subst htitle
    exact Entry.waits_of_held 0 (by decide) (by decide)
  · have hstakes : (knownColour.input "re").2.filterMap knownColour.config.stake?
        = [⟨⟨"Colours", 0, 0⟩, 1, 10⟩, ⟨⟨"Colours", 0, 0⟩, 2, 10⟩, ⟨⟨"Shades", 0, 1⟩, 0, 10⟩] := by
      decide
    rw [Config.stakes_eq_filter, hstakes]
    refine Entry.waits_of_alone (List.Nodup.filter _ (by decide)) ?_
    have hcolours : ("Colours" == title) = false := by simpa using Ne.symm htitle
    simp only [List.filter_cons, hcolours, Bool.false_eq_true, if_false, List.filter_nil]
    split <;> simp

theorem loading_categories_stay_iff_knownColour :
    let requests := (knownColour.input "re").2
    knownColour.config.check = .ok () ∧ knownColour.config.showWhenSearching = true ∧
      knownColour.WaitsForAnswers "re" ∧
      requests.map (fun r => (r.source, r.definition))
        = [("colour", 1), ("colour", 2), ("shade", 0)] ∧
      ∀ items r rs, (r :: rs).Subperm requests → ∃ s ∈ knownColour.config.sources,
        s.name = r.source ∧ (knownColour.arrived "re" items rs).HasPlace s.title := by
  intro requests
  have hcheck : knownColour.config.check = .ok () := rfl
  have hwaits := waitsForAnswers_knownColour
  refine ⟨hcheck, rfl, hwaits, by decide, ?_⟩
  exact (loading_categories_stay_iff knownColour "re" hcheck rfl).mpr hwaits

/-- A source that asks two services. -/
def twoServices : Bar :=
  waiting
    [{ name := "colour", title := "Colours", comparisons := ["="]
       definitions := [served [] none, served [] none] }]

/-- **Of two services in one source, the first that finds nothing takes the category away** from the
other, which is still awaited. -/
theorem loading_category_gone_within_source :
    let requests := (twoServices.input "re").2
    twoServices.config.check = .ok () ∧ twoServices.config.showWhenSearching = true ∧
      requests.map (fun r => (r.source, r.definition)) = [("colour", 0), ("colour", 1)] ∧
      twoServices.shownAfter "re" [] = [("Colours", [])] ∧
      twoServices.shownAfter "re" (requests.take 1) = [] :=
  ⟨rfl, rfl, by decide, by decide, by decide⟩

/-- Two sources that share a title, each of which asks a service. -/
def sharedTitle : Bar :=
  waiting
    [{ name := "colour", title := "Colours", comparisons := ["="], definitions := [served [] none] },
     { name := "shade", title := "Colours", comparisons := ["="], definitions := [served [] none] }]

/-- **So it is with two sources under one title.** -/
theorem loading_category_gone_under_shared_title :
    let requests := (sharedTitle.input "re").2
    sharedTitle.config.check = .ok () ∧ sharedTitle.config.showWhenSearching = true ∧
      requests.map (·.source) = ["colour", "shade"] ∧
      sharedTitle.shownAfter "re" [] = [("Colours", [])] ∧
      sharedTitle.shownAfter "re" (requests.take 1) = [] :=
  ⟨rfl, rfl, by decide, by decide, by decide⟩

end QueryBar.Bar
