/-
Asking definitions one after the other.

A search is a fold over sources and, within each, over definitions.  Each step does two
things that have nothing to do with each other: it changes the buckets, in a way that
neither the generation nor earlier requests matter for, and it may append a request.
`askDefinition_eq` takes the step apart, and the lemmas after it carry both halves through
the two folds.
-/
import QueryBar.Proofs.Search.Specification

namespace QueryBar

/-- A service has to be asked for the items of the list. -/
def ListLookup.asksService (l : ListLookup) : Bool :=
  match l.supply with
  | .items _ => false
  | .service _ => true

/-- The definition is a list whose items a service knows. -/
def Definition.asksService : Definition → Bool
  | .list l => l.asksService
  | .test _ => false

theorem Definition.asksService_of_service? {d : Definition} {search : String}
    (h : (d.service? search).isSome = true) : d.asksService = true := by
  cases d with
  | test t => simp [service?] at h
  | list l =>
      show l.asksService = true
      unfold ListLookup.asksService
      cases hl : l.supply with
      | items items => simp [service?, hl] at h
      | service service => rfl

namespace SearchContext

variable {ctx : SearchContext} {search : String} {operator operator' : Option Operator}
  {g g' : Generation} {s : Source} {category : Category} {found found' : Findings}

/-! ### One definition -/

/-- The buckets after a definition has been asked: its offering is merged, and if it has a
service instead, the place of the category may be reserved. -/
def bucketsAfter (ctx : SearchContext) (search : String) (s : Source) (category : Category)
    (bs : Buckets) (d : Definition) (index : Nat) : Buckets :=
  match d.offering? s ctx.config.itemLimit search with
  | some o => bs.merge category index o.options o.limit
  | none =>
    if ctx.config.showWhenSearching && (d.service? search).isSome then bs.reserve category else bs

/-- The request for a definition, if it has a service to ask. -/
def requestFor (ctx : SearchContext) (search : String) (operator : Option Operator)
    (g : Generation) (s : Source) (d : Definition) (index : Nat) : Option LookupRequest :=
  (d.service? search).map (ctx.request search operator g s index)

/-- **Asking a definition changes the buckets and appends a request.** -/
theorem askDefinition_eq (d : Definition) (index : Nat) :
    ctx.askDefinition search operator g s category found d index
      = { buckets := ctx.bucketsAfter search s category found.buckets d index
          pending := found.pending ++ (ctx.requestFor search operator g s d index).toList } := by
  cases d with
  | test t =>
      by_cases ht : t.accepts search
      · simp [askDefinition, bucketsAfter, requestFor, Definition.offering?,
          Definition.service?, ht]
      · simp [askDefinition, bucketsAfter, requestFor, Definition.offering?,
          Definition.service?, ht]
  | list l =>
      cases hl : l.supply with
      | items items =>
          by_cases hshort : search.length < l.minLength
          · simp [askDefinition, bucketsAfter, requestFor, Definition.offering?,
              Definition.service?, hl, hshort]
          · by_cases hnone : (items.filter (l.accepts search)).isEmpty = true
            · simp [askDefinition, bucketsAfter, requestFor, Definition.offering?,
                Definition.service?, hl, hshort, hnone]
            · simp [askDefinition, bucketsAfter, requestFor, Definition.offering?,
                Definition.service?, hl, hshort, hnone]
      | service service =>
          by_cases hshort : search.length < l.minLength
          · simp [askDefinition, bucketsAfter, requestFor, Definition.offering?,
              Definition.service?, hl, hshort]
          · simp [askDefinition, bucketsAfter, requestFor, Definition.offering?,
              Definition.service?, hl, hshort]

/-! ### All definitions of a source -/

/-- The requests that asking a source hands out. -/
def requestsFor (ctx : SearchContext) (search : String) (operator : Option Operator)
    (g : Generation) (s : Source) : List LookupRequest :=
  if s.eligible ctx.function then
    s.definitions.zipIdx.filterMap fun (d, index) =>
      ctx.requestFor search operator g s d index
  else []

/-- The fold over the definitions of a source, taken apart as its step is. -/
theorem foldl_askDefinition (ds : List (Definition × Nat)) (found : Findings) :
    ds.foldl (fun found (d, index) =>
        ctx.askDefinition search operator g s category found d index) found
      = { buckets := ds.foldl (fun bs (d, index) =>
            ctx.bucketsAfter search s category bs d index) found.buckets
          pending := found.pending ++ ds.filterMap fun (d, index) =>
            ctx.requestFor search operator g s d index } := by
  induction ds generalizing found with
  | nil => simp
  | cons head rest ih =>
      obtain ⟨d, index⟩ := head
      rw [List.foldl_cons, ih]
      simp only [askDefinition_eq, List.foldl_cons]
      cases hr : ctx.requestFor search operator g s d index with
      | none => simp [hr]
      | some r => simp [hr]

def bucketsAfterSource (ctx : SearchContext) (search : String) (bs : Buckets) (s : Source)
    (position : Nat) : Buckets :=
  if s.eligible ctx.function then
    s.definitions.zipIdx.foldl (fun bs (d, index) =>
      ctx.bucketsAfter search s (.ofSource s position) bs d index) bs
  else bs

theorem askSource_eq (s : Source) (position : Nat) :
    ctx.askSource search operator g found s position
      = { buckets := ctx.bucketsAfterSource search found.buckets s position
          pending := found.pending ++ ctx.requestsFor search operator g s } := by
  unfold askSource bucketsAfterSource requestsFor
  split
  · exact foldl_askDefinition s.definitions.zipIdx found
  · simp

/-! ### All sources -/

/-- The fold over the sources, taken apart as its step is. -/
theorem foldl_askSource (ss : List (Source × Nat)) (found : Findings) :
    ss.foldl (fun found (s, position) =>
        ctx.askSource search operator g found s position) found
      = { buckets := ss.foldl (fun bs (s, position) =>
            ctx.bucketsAfterSource search bs s position) found.buckets
          pending := found.pending ++ ss.flatMap fun (s, _) =>
            ctx.requestsFor search operator g s } := by
  induction ss generalizing found with
  | nil => simp
  | cons head rest ih =>
      obtain ⟨s, position⟩ := head
      rw [List.foldl_cons, ih]
      simp [askSource_eq]

theorem find_of_tooShort (h : ctx.tooShort search) : ctx.find search operator g = {} := if_pos h

/-- **What a search finds, buckets and requests apart.** -/
theorem find_eq (h : ¬ ctx.tooShort search) :
    ctx.find search operator g
      = { buckets := ctx.config.sources.zipIdx.foldl (fun bs (s, position) =>
            ctx.bucketsAfterSource search bs s position) (ctx.functionBuckets search)
          pending := ctx.config.sources.flatMap (ctx.requestsFor search operator g) } := by
  have hfind : ctx.find search operator g
      = ctx.config.sources.zipIdx.foldl (fun found (s, position) =>
          ctx.askSource search operator g found s position)
          { buckets := ctx.functionBuckets search } := if_neg h
  have hsources : ctx.config.sources.zipIdx.flatMap (fun (s, _) =>
      ctx.requestsFor search operator g s)
        = ctx.config.sources.flatMap (ctx.requestsFor search operator g) := by
    rw [← List.flatMap_map, List.zipIdx_map_fst]
  rw [hfind, foldl_askSource, hsources, List.nil_append]

/-! ### What holds of all buckets that are found -/

/-- **What holds of the function names, and still holds when an offering is merged or a place is
reserved, holds of the buckets that a search finds.** -/
theorem buckets_find {P : Buckets → Prop} (hnil : P []) (hnames : P (ctx.functionBuckets search))
    (hmerge : ∀ bs, P bs → ∀ position s, ctx.config.sources[position]? = some s →
      s.eligible ctx.function = true → ∀ d ∈ s.definitions, ∀ o,
        d.offering? s ctx.config.itemLimit search = some o →
          ∀ index, P (bs.merge (.ofSource s position) index o.options o.limit))
    (hreserve : ∀ bs, P bs → ∀ position s, ctx.config.sources[position]? = some s →
      s.eligible ctx.function = true → ∀ d ∈ s.definitions,
        (d.service? search).isSome = true → P (bs.reserve (.ofSource s position)))
    (operator : Option Operator) (g : Generation) :
    P (ctx.find search operator g).buckets := by
  by_cases hshort : ctx.tooShort search
  · rw [find_of_tooShort hshort]
    exact hnil
  · rw [find_eq hshort]
    refine List.foldlRecOn _ _ hnames ?_
    rintro bs hbs ⟨s, position⟩ hs
    have hplace := List.mem_zipIdx_iff_getElem?.mp hs
    show P (ctx.bucketsAfterSource search bs s position)
    unfold bucketsAfterSource
    split
    · rename_i heligible
      refine List.foldlRecOn _ _ hbs ?_
      rintro bs hbs ⟨d, index⟩ hd
      have hmem : d ∈ s.definitions := List.mem_of_getElem? (List.mem_zipIdx_iff_getElem?.mp hd)
      show P (ctx.bucketsAfter search s (.ofSource s position) bs d index)
      unfold bucketsAfter
      split
      · rename_i o ho
        exact hmerge bs hbs position s hplace heligible d hmem o ho index
      · split
        · rename_i hservice
          rw [Bool.and_eq_true] at hservice
          exact hreserve bs hbs position s hplace heligible d hmem hservice.2
        · exact hbs
    · exact hbs

end SearchContext

end QueryBar
