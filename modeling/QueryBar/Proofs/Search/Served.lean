/-
Lists that a service answers for.

A list whose items are known can be handed to a service that answers each question with the
items that match it, in their order.  `Config.ServedAs` relates two configurations of which
the second has handed over some of its lists in this way, and is otherwise the first.

The lists that are handed over are found later: their category may be new then or kept
since the search, and other definitions of the source may have contributed before them or
have released the place.  None of this is left to be seen in the end.  By definition, the
two configurations come to the same (`Definition.ServedAs.settled?_eq`), so every category
gathers the same, and what is gathered settles the buckets.
-/
import Mathlib.Data.List.Forall2
import QueryBar.Proofs.Search.Gathering

namespace QueryBar

/-! ### Handing lists over -/

/-- The definition is kept, or it is a list that a service answers for now. -/
inductive Definition.ServedAs : Definition → Definition → Prop
  | kept (d : Definition) : d.ServedAs d
  | served (l : ListLookup) (items : List Item) (service : Service)
      (hsupply : l.supply = .items items)
      (hanswer : ∀ q, service.answer q = items.filter (l.accepts q.text)) :
      (Definition.list l).ServedAs (.list { l with supply := .service service })

/-- Some lists of the source are handed over. -/
structure Source.ServedAs (s s' : Source) : Prop where
  definitions : List.Forall₂ Definition.ServedAs s.definitions s'.definitions
  others : s' = { s with definitions := s'.definitions }

/-- Some lists of the configuration are handed over. -/
structure Config.ServedAs (c c' : Config) : Prop where
  sources : List.Forall₂ Source.ServedAs c.sources c'.sources
  others : c' = { c with sources := c'.sources }

/-! ### What is the same -/

namespace Source.ServedAs

variable {s s' : Source}

theorem name_eq (h : s.ServedAs s') : s'.name = s.name := by rw [h.others]

theorem title_eq (h : s.ServedAs s') : s'.title = s.title := by rw [h.others]

theorem eligible_eq (h : s.ServedAs s') (f : Option QueryFunction) :
    s'.eligible f = s.eligible f := by
  rw [h.others]
  rfl

theorem ofSource_eq (h : s.ServedAs s') (position : Nat) :
    Category.ofSource s' position = Category.ofSource s position := by
  rw [h.others]
  rfl

end Source.ServedAs

namespace Definition

variable {s : Source} {l : ListLookup}

/-- What a list has in the end, wherever the items that match come from. -/
def settledList (s : Source) (standard : Nat) (q : Question) (l : ListLookup)
    (accepted : List Item) : Option Offering :=
  if q.text.length < l.minLength || accepted.isEmpty then none
  else some ⟨l.suggestions s accepted, some (l.limit standard)⟩

theorem settled?_of_items {items : List Item} (h : l.supply = .items items) (standard : Nat)
    (q : Question) : (Definition.list l).settled? s standard q
      = settledList s standard q l (items.filter (l.accepts q.text)) := by
  unfold settled? offering? served? service?
  simp only [h, Option.map_none, Option.filter_none, Option.or_none]
  rfl

theorem settled?_of_service {service : Service} (h : l.supply = .service service) (standard : Nat)
    (q : Question) : (Definition.list l).settled? s standard q
      = settledList s standard q l (service.answer q) := by
  unfold settled? offering? served? service? settledList
  simp only [h, Option.none_or]
  by_cases hshort : q.text.length < l.minLength
  · simp [hshort]
  · by_cases hnone : service.answer q = []
    · simp [hshort, hnone, ListLookup.suggestions]
    · simp [hshort, hnone, ListLookup.suggestions]

/-- **A definition that is kept or handed over comes to the same.** -/
theorem ServedAs.settled?_eq {d d' : Definition} {s s' : Source} (h : d.ServedAs d')
    (hname : s'.name = s.name) (standard : Nat) (q : Question) :
    d'.settled? s' standard q = d.settled? s standard q := by
  have hsuggestions : ∀ (l : ListLookup) (items : List Item),
      l.suggestions s' items = l.suggestions s items := by
    intro l items
    unfold ListLookup.suggestions
    rw [hname]
  cases h with
  | kept =>
      unfold settled? offering? served?
      simp only [hsuggestions, hname]
  | served l items service hsupply hanswer =>
      rw [settled?_of_items hsupply, settled?_of_service rfl, hanswer]
      unfold settledList
      rw [hsuggestions]
      rfl

end Definition

section Forall₂

variable {α β γ : Type} {R : α → β → Prop} {xs : List α} {ys : List β}

private theorem exists_of_place (h : List.Forall₂ R xs ys) {i : Nat} {x : α}
    (hx : xs[i]? = some x) : ∃ y, ys[i]? = some y ∧ R x y := by
  obtain ⟨hlength, hall⟩ := List.forall₂_iff_get.mp h
  obtain ⟨hlt, rfl⟩ := List.getElem?_eq_some_iff.mp hx
  have hlt' : i < ys.length := hlength ▸ hlt
  exact ⟨ys[i], List.getElem?_eq_getElem hlt', hall i hlt hlt'⟩

private theorem exists_of_mem (h : List.Forall₂ R xs ys) {y : β} (hy : y ∈ ys) :
    ∃ x ∈ xs, R x y := by
  obtain ⟨i, hi⟩ := List.mem_iff_getElem?.mp hy
  obtain ⟨x, hx, hxy⟩ := exists_of_place h.flip hi
  exact ⟨x, List.mem_of_getElem? hx, hxy⟩

private theorem map_eq_of_forall₂ (h : List.Forall₂ R xs ys) {f : α → γ} {f' : β → γ}
    (hf : ∀ x y, R x y → f' y = f x) : ys.map f' = xs.map f := by
  induction h with
  | nil => rfl
  | cons hhead _ ih => rw [List.map_cons, List.map_cons, hf _ _ hhead, ih]

private theorem filterMap_zipIdx_eq (h : List.Forall₂ R xs ys) {f : α × Nat → Option γ}
    {f' : β × Nat → Option γ} (hf : ∀ x y i, R x y → f' (y, i) = f (x, i)) (index : Nat) :
    (ys.zipIdx index).filterMap f' = (xs.zipIdx index).filterMap f := by
  induction h generalizing index with
  | nil => rfl
  | cons hhead _ ih =>
      rw [List.zipIdx_cons, List.zipIdx_cons, List.filterMap_cons, List.filterMap_cons, ih,
        hf _ _ _ hhead]

end Forall₂

namespace Config.ServedAs

variable {c c' : Config} {s : Source} {position : Nat}

theorem map_name (h : c.ServedAs c') : c'.sources.map (·.name) = c.sources.map (·.name) :=
  map_eq_of_forall₂ h.sources fun _ _ hs => hs.name_eq

theorem map_title (h : c.ServedAs c') : c'.sources.map (·.title) = c.sources.map (·.title) :=
  map_eq_of_forall₂ h.sources fun _ _ hs => hs.title_eq

theorem itemLimit_eq (h : c.ServedAs c') : c'.itemLimit = c.itemLimit := by rw [h.others]

/-- What tells categories apart and keeps them in view does so after lists are handed over. -/
theorem separates (h : c.ServedAs c') (hc : c.Separates) : c'.Separates where
  names := h.map_name ▸ hc.names
  titles := h.map_title ▸ hc.titles
  functions := h.map_title ▸ hc.functions
  limits := by
    intro s' hs' l' hl'
    obtain ⟨s, hs, hserved⟩ := exists_of_mem h.sources hs'
    obtain ⟨d, hd, hdefinition⟩ := exists_of_mem hserved.definitions hl'
    rw [h.itemLimit_eq]
    cases hdefinition with
    | kept => exact hc.limits s hs l' hd
    | served l items service => exact hc.limits s hs l hd

/-- What is typed is taken apart in the same way. -/
theorem ofText_eq (h : c.ServedAs c') (f : Option QueryFunction) (text : String) :
    Tokens.ofText c' f text = Tokens.ofText c f text := by
  rw [h.others]
  rfl

/-- The categories of the sources are the same. -/
theorem belongsTo (h : c.ServedAs c') {a : Category} (ha : a.BelongsTo c') : a.BelongsTo c := by
  obtain ⟨position, s', hs', rfl⟩ := ha
  obtain ⟨s, hs, hserved⟩ := exists_of_place h.sources.flip hs'
  exact ⟨position, s, hs, hserved.ofSource_eq position⟩

end Config.ServedAs

/-! ### What searches come to -/

namespace SearchContext

variable {ctx : SearchContext} {c' : Config} {search : String} {operator : Option Operator}
  {g : Generation}

/-- The same search in another configuration. -/
def under (ctx : SearchContext) (c : Config) : SearchContext := { ctx with config := c }

/-- A source contributes the same in the end. -/
theorem settledContributions_under (h : ctx.config.ServedAs c') {s s' : Source}
    (hs : s.ServedAs s') :
    (ctx.under c').settledContributions search operator s'
      = ctx.settledContributions search operator s := by
  unfold settledContributions contributionsBy
  show (if s'.eligible ctx.function = true then _ else _) = _
  rw [hs.eligible_eq]
  split
  · refine filterMap_zipIdx_eq hs.definitions ?_ 0
    intro d d' index hd
    show (d'.settled? s' c'.itemLimit (ctx.question search operator)).map _ = _
    rw [h.itemLimit_eq, hd.settled?_eq hs.name_eq]
  · rfl

theorem tooShort_under (h : ctx.config.ServedAs c') :
    (ctx.under c').tooShort search ↔ ctx.tooShort search := by
  unfold tooShort under
  rw [h.others]

theorem functionBuckets_under (h : ctx.config.ServedAs c') :
    (ctx.under c').functionBuckets search = ctx.functionBuckets search := by
  unfold functionBuckets under
  rw [h.others]

/-- **After all answers a search has come to the same.** -/
theorem settled_under (h : ctx.config.ServedAs c') (hc : ctx.config.Separates) :
    (((ctx.under c').find search operator g).settled c' : Buckets)
      = (ctx.find search operator g).settled ctx.config := by
  have hc' : (ctx.under c').config.Separates := h.separates hc
  by_cases hshort : ctx.tooShort search
  · rw [find_of_tooShort hshort, find_of_tooShort ((tooShort_under h).mpr hshort)]
    rfl
  · have hshort' : ¬ (ctx.under c').tooShort search := fun hs => hshort ((tooShort_under h).mp hs)
    have hordered := ordered_settled (ctx.under c') search operator g
    refine Buckets.Ordered.eq_of_bucket? (hordered.of_belongsTo fun _ => h.belongsTo)
      (ordered_settled ctx search operator g) ?_
    intro title
    by_cases hsource : ∃ s ∈ ctx.config.sources, s.title = title
    · obtain ⟨s, hs, rfl⟩ := hsource
      obtain ⟨position, hs⟩ := List.mem_iff_getElem?.mp hs
      obtain ⟨s', hs', hserved⟩ := exists_of_place h.sources hs
      have hgathers := gathers_settled hc' hshort' hs' operator g
      have hshown := shown_settled hc' hshort' hs' operator g
      rw [settledContributions_under h hserved, hserved.title_eq, hserved.ofSource_eq] at hgathers
      rw [hserved.title_eq] at hshown
      exact hgathers.unique (gathers_settled hc hshort hs operator g) hshown
        (shown_settled hc hshort hs operator g)
    · have hother : ∀ s ∈ ctx.config.sources, s.title ≠ title :=
        fun s hs htitle => hsource ⟨s, hs, htitle⟩
      have hother' : ∀ s' ∈ (ctx.under c').config.sources, s'.title ≠ title := by
        intro s' hs'
        obtain ⟨s, hs, hserved⟩ := exists_of_mem h.sources hs'
        exact hserved.title_eq ▸ hother s hs
      exact (bucket?_settled_of_ne hc' hshort' hother').trans
        ((congrArg (Buckets.bucket? · title) (functionBuckets_under h)).trans
          (bucket?_settled_of_ne hc hshort hother).symm)

/-- **A list that a service answers for comes to the same as one whose items are known.**  Titles
tell the sources apart, none is that of the function names, and no limit is nought; then the settled
offer for a text has the same tokens, buckets and slots, under any function and whether or not
places are kept in view. -/
theorem settledOffer_servedAs (ctx : SearchContext) {c' : Config}
    (hcheck : ctx.config.check = .ok ()) (htitles : (ctx.config.sources.map (·.title)).Nodup)
    (hfunctions : Category.functionsTitle ∉ ctx.config.sources.map (·.title))
    (hlimits : ∀ s ∈ ctx.config.sources, ∀ l, .list l ∈ s.definitions →
      1 ≤ l.limit ctx.config.itemLimit)
    (h : ctx.config.ServedAs c') (text : String) :
    let served := (ctx.under c').settledOffer text
    let offer := ctx.settledOffer text
    served.tokens = offer.tokens ∧ served.buckets = offer.buckets ∧
      served.buckets.total = offer.buckets.total := by
  intro served offer
  have hc : ctx.config.Separates := ⟨Config.nodup_names hcheck, htitles, hfunctions,
    fun s hs l hl => Nat.one_le_iff_ne_zero.mp (hlimits s hs l hl)⟩
  have htokens : Tokens.ofText (ctx.under c').config (ctx.under c').function text
      = Tokens.ofText ctx.config ctx.function text := h.ofText_eq ctx.function text
  have hbuckets : served.buckets = offer.buckets := by
    cases haside : ((Tokens.ofText ctx.config ctx.function text).freeText
        || (Tokens.ofText ctx.config ctx.function text).bracket.isSome) with
    | true =>
        have hnothing := settledOffer_of_aside haside
        exact (settledOffer_of_aside (htokens ▸ haside)).trans hnothing.symm
    | false =>
        refine (settledOffer_of_searched (htokens ▸ haside)).trans ?_
        rw [htokens]
        exact (settled_under h hc).trans (settledOffer_of_searched haside).symm
  refine ⟨?_, hbuckets, congrArg Buckets.total hbuckets⟩
  exact (tokens_settledOffer (ctx.under c') text).trans
    (htokens.trans (tokens_settledOffer ctx text).symm)

/-- A list of colours, of which one is shown at most. -/
def colourList : ListLookup where
  supply := .items [.text "dark red", .text "green", .text "blue"]
  itemLimit := some 1

/-- The same list, answered by a service. -/
def colourService : Service where
  answer q := [.text "dark red", .text "green", .text "blue"].filter (colourList.accepts q.text)
  wait _ := 5

/-- The list and a service in one source, and in another a service that finds nothing. -/
def colourSources (colours : ListLookup) : SearchContext where
  config :=
    { Config.ofSources
        [{ name := "colour", title := "Colours", comparisons := ["="]
           definitions := [.list colours,
             .list { supply := .service ⟨fun q => [.text (q.text ++ "seda")], fun _ => 0⟩ }] },
         { name := "shade", title := "Shades", comparisons := ["="]
           definitions := [.list { supply := .service ⟨fun _ => [], fun _ => 0⟩ }] }] with
      showWhenSearching := true }

theorem settledOffer_servedAs_colours :
    let ctx := colourSources colourList
    let served := colourSources { colourList with supply := .service colourService }
    ctx.config.check = .ok () ∧ (ctx.config.sources.map (·.title)).Nodup ∧
      Category.functionsTitle ∉ ctx.config.sources.map (·.title) ∧
      (∀ s ∈ ctx.config.sources, ∀ l, .list l ∈ s.definitions →
        1 ≤ l.limit ctx.config.itemLimit) ∧
      ctx.config.ServedAs served.config ∧
      (served.settledOffer "re").buckets = (ctx.settledOffer "re").buckets ∧
      (ctx.settledOffer "re").buckets.map (fun b => (b.title, b.options.map (·.text)))
        = [("Colours", ["dark red", "reseda"])] := by
  intro ctx served
  have hcheck : ctx.config.check = .ok () := by rfl
  have htitles : (ctx.config.sources.map (·.title)).Nodup := by decide
  have hfunctions : Category.functionsTitle ∉ ctx.config.sources.map (·.title) := by decide
  have hlimits : ∀ s ∈ ctx.config.sources, ∀ l, .list l ∈ s.definitions →
      1 ≤ l.limit ctx.config.itemLimit := by
    intro s hs l hl
    simp only [ctx, colourSources, Config.ofSources, List.mem_cons, List.not_mem_nil,
      or_false] at hs
    rcases hs with rfl | rfl
    · simp only [List.mem_cons, List.not_mem_nil, or_false, Definition.list.injEq] at hl
      rcases hl with rfl | rfl <;> decide
    · simp only [List.mem_cons, List.not_mem_nil, or_false, Definition.list.injEq] at hl
      subst hl
      decide
  have hserved : ctx.config.ServedAs served.config := by
    refine ⟨List.Forall₂.cons ⟨?_, rfl⟩ (List.Forall₂.cons ⟨?_, rfl⟩ List.Forall₂.nil), rfl⟩
    · exact List.Forall₂.cons (.served colourList _ colourService rfl fun _ => rfl)
        (List.Forall₂.cons (.kept _) List.Forall₂.nil)
    · exact List.Forall₂.cons (.kept _) List.Forall₂.nil
  obtain ⟨-, hbuckets, -⟩ :=
    settledOffer_servedAs ctx hcheck htitles hfunctions hlimits hserved "re"
  exact ⟨hcheck, htitles, hfunctions, hlimits, hserved, hbuckets, by decide⟩

end SearchContext

end QueryBar
