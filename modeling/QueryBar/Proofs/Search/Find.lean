/-
What a search finds.

The buckets of a search are described by `SearchContext.bucketOf`: each source that
contributes has one, with the contributions of its definitions in their order.
`bucket?_bucketsAfterSource` says that asking a source changes the entry of its title to
that bucket and nothing else, provided no other source has used the title before; over
all sources this settles which buckets there are (`mem_foldl_bucketsAfterSource`).  They
are kept in order all the while, and so are the buckets of the specification, so the two
lists are the same.

Titles have to differ for this, from each other and from the title of the function names:
sources that share a title share a bucket, whose rank is that of whichever came first.
-/
import QueryBar.Proofs.Buckets.Order
import QueryBar.Proofs.Search.Asking

namespace QueryBar.SearchContext

variable {ctx : SearchContext} {search : String} {operator : Option Operator} {g : Generation}
  {s : Source} {category : Category} {bs : Buckets} {position : Nat}

/-! ### The bucket of the function names -/

theorem functionBuckets_eq : ctx.functionBuckets search
    = if (ctx.functionNames search).isEmpty then []
      else [(Bucket.empty .functions).contribute 0 (ctx.functionNames search) none] := rfl

theorem category_of_mem_functionBuckets {b : Bucket} (hb : b ∈ ctx.functionBuckets search) :
    b.category = .functions := by
  rw [functionBuckets_eq] at hb
  split at hb
  · simp at hb
  · rw [List.mem_singleton.mp hb]
    rfl

theorem pairwise_functionBuckets (r : Bucket → Bucket → Prop) :
    (ctx.functionBuckets search).Pairwise r := by
  rw [functionBuckets_eq]
  split
  · exact List.Pairwise.nil
  · exact List.pairwise_singleton ..

theorem ordered_functionBuckets (ctx : SearchContext) (search : String) (c : Config) :
    (ctx.functionBuckets search).Ordered c where
  titles := List.pairwise_map.mpr (pairwise_functionBuckets _)
  owned _ hb := Or.inl (category_of_mem_functionBuckets hb)
  ranked := pairwise_functionBuckets _

/-! ### The bucket of one source -/

/-- What the definitions of a source contribute to its bucket. -/
def contributionsOf (ctx : SearchContext) (search : String) (s : Source)
    (ds : List (Definition × Nat)) : List Contribution :=
  ds.filterMap fun (d, index) =>
    (d.offering? s ctx.config.itemLimit search).map fun o =>
      .after [] index o.options o.limit

/-- Whether a service among the definitions is waited for in view. -/
def reserves (ctx : SearchContext) (search : String) (ds : List (Definition × Nat)) : Bool :=
  ctx.config.showWhenSearching && ds.any fun (d, _) => (d.service? search).isSome

theorem contributionsOf_cons (d : Definition × Nat) (rest : List (Definition × Nat)) :
    ctx.contributionsOf search s (d :: rest)
      = ctx.contributionsOf search s [d] ++ ctx.contributionsOf search s rest :=
  List.filterMap_append (l := [d])

theorem reserves_cons (d : Definition × Nat) (rest : List (Definition × Nat)) :
    ctx.reserves search (d :: rest) = (ctx.reserves search [d] || ctx.reserves search rest) := by
  simp [reserves, Bool.and_or_distrib_left]

/-- The bucket that a source contributes. -/
def bucketOf (ctx : SearchContext) (search : String) (s : Source) (position : Nat) : Bucket :=
  { Bucket.empty (.ofSource s position) with
    contributions := ctx.contributionsOf search s s.definitions.zipIdx }

/-! ### What asking makes of an entry -/

/-- An entry to which contributions have been added, and which is there anyway if its place was
to be reserved. -/
def grown (category : Category) (cs : List Contribution) (reserved : Bool)
    (entry : Option Bucket) : Option Bucket :=
  if cs.isEmpty && !reserved then entry
  else
    let b := entry.getD (.empty category)
    some { b with contributions := b.contributions ++ cs }

/-- An entry can grow bit by bit. -/
theorem grown_append (cs cs' : List Contribution) (reserved reserved' : Bool)
    (entry : Option Bucket) :
    grown category (cs ++ cs') (reserved || reserved') entry
      = grown category cs' reserved' (grown category cs reserved entry) := by
  cases cs <;> cases cs' <;> cases reserved <;> cases reserved' <;> simp [grown]

/-- Asking one definition lets the entry of its category grow and leaves all others alone. -/
theorem bucket?_bucketsAfter (ctx : SearchContext) (search : String) (s : Source)
    (d : Definition) (index : Nat) (title : String)
    (hbefore : ∀ b, bs.bucket? category.title = some b →
      ∀ c ∈ b.contributions, c.origin < index) :
    (ctx.bucketsAfter search s category bs d index).bucket? title
      = if category.title = title then
          grown category (ctx.contributionsOf search s [(d, index)])
            (ctx.reserves search [(d, index)]) (bs.bucket? title)
        else bs.bucket? title := by
  unfold bucketsAfter contributionsOf reserves
  cases ho : d.offering? s ctx.config.itemLimit search with
  | some o =>
      rw [Buckets.bucket?_merge]
      by_cases ht : category.title = title
      · subst ht
        have hlast : Contribution.insert index o.options o.limit
            ((bs.bucket? category.title).getD (.empty category)).contributions
            = ((bs.bucket? category.title).getD (.empty category)).contributions
                ++ [.after [] index o.options o.limit] := by
          refine Contribution.insert_of_lt ?_
          cases hb : bs.bucket? category.title with
          | none => simp [Bucket.empty]
          | some b => simpa using hbefore b hb
        simp [ho, grown, Bucket.contribute, hlast]
      · simp [ht]
  | none =>
      by_cases hr : (ctx.config.showWhenSearching && (d.service? search).isSome) = true
      · rw [if_pos hr, Buckets.bucket?_reserve]
        simp [ho, grown, hr]
      · rw [if_neg hr]
        rw [Bool.not_eq_true] at hr
        simp [ho, grown, hr]

/-- All origins of an entry lie below a place. -/
def OriginsBelow (index : Nat) (entry : Option Bucket) : Prop :=
  ∀ b, entry = some b → ∀ c ∈ b.contributions, c.origin < index

theorem OriginsBelow.grown {index : Nat} {entry : Option Bucket} (h : OriginsBelow index entry)
    (d : Definition) (reserved : Bool) :
    OriginsBelow (index + 1)
      (grown category (ctx.contributionsOf search s [(d, index)]) reserved entry) := by
  intro b hb c hc
  unfold SearchContext.grown at hb
  split at hb
  · exact Nat.lt_succ_of_lt (h b hb c hc)
  · obtain rfl := Option.some.inj hb
    rcases List.mem_append.mp hc with hold | hnew
    · cases entry with
      | none => simp [Bucket.empty] at hold
      | some a => exact Nat.lt_succ_of_lt (h a rfl c hold)
    · have horigin : c.origin = index := by
        simp only [contributionsOf, List.filterMap_cons, List.filterMap_nil] at hnew
        cases ho : d.offering? s ctx.config.itemLimit search with
        | none => simp [ho] at hnew
        | some o => simp [ho] at hnew; rw [hnew]; rfl
      omega

/-- Asking the definitions of a source lets the entry of its category grow by all of them. -/
theorem bucket?_foldl_bucketsAfter (ds : List Definition) (index : Nat) (bs : Buckets)
    (hbefore : OriginsBelow index (bs.bucket? category.title)) (title : String) :
    ((ds.zipIdx index).foldl (fun bs (d, index) =>
        ctx.bucketsAfter search s category bs d index) bs).bucket? title
      = if category.title = title then
          grown category (ctx.contributionsOf search s (ds.zipIdx index))
            (ctx.reserves search (ds.zipIdx index)) (bs.bucket? title)
        else bs.bucket? title := by
  induction ds generalizing index bs with
  | nil => simp [contributionsOf, reserves, grown]
  | cons d rest ih =>
      rw [List.zipIdx_cons, List.foldl_cons]
      have hstep := fun title => bucket?_bucketsAfter ctx search s d index title hbefore
      have hnext : OriginsBelow (index + 1)
          ((ctx.bucketsAfter search s category bs d index).bucket? category.title) := by
        rw [hstep, if_pos rfl]
        exact hbefore.grown d _
      rw [ih (index + 1) _ hnext, hstep]
      by_cases ht : category.title = title
      · rw [if_pos ht, if_pos ht, if_pos ht, ← grown_append]
        rw [contributionsOf_cons (d, index) (rest.zipIdx (index + 1)),
          reserves_cons (d, index) (rest.zipIdx (index + 1))]
      · rw [if_neg ht, if_neg ht, if_neg ht]

/-! ### What asking a source makes of the buckets -/

theorem isEmpty_contributionsOf (ds : List Definition) (index : Nat) :
    (ctx.contributionsOf search s (ds.zipIdx index)).isEmpty
      = (ds.filterMap (·.offering? s ctx.config.itemLimit search)).isEmpty := by
  induction ds generalizing index with
  | nil => rfl
  | cons d rest ih =>
      rw [List.zipIdx_cons, contributionsOf_cons, List.filterMap_cons]
      cases ho : d.offering? s ctx.config.itemLimit search with
      | none => simpa [contributionsOf, ho] using ih (index + 1)
      | some o => simp [contributionsOf, ho]

theorem reserves_zipIdx (ds : List Definition) (index : Nat) :
    ctx.reserves search (ds.zipIdx index)
      = (ctx.config.showWhenSearching && ds.any fun d => (d.service? search).isSome) := by
  unfold reserves
  congr 1
  conv_rhs => rw [← List.zipIdx_map_fst index ds, List.any_map]
  rfl

/-- **Asking a source makes its bucket, if it contributes, where there was none.** -/
theorem bucket?_bucketsAfterSource (ctx : SearchContext) (search : String) (position : Nat)
    (hnew : bs.bucket? s.title = none) (title : String) :
    (ctx.bucketsAfterSource search bs s position).bucket? title
      = if s.title = title ∧ ctx.contributes search s = true then
          some (ctx.bucketOf search s position)
        else bs.bucket? title := by
  unfold bucketsAfterSource contributes
  by_cases he : s.eligible ctx.function = true
  · have hnone : OriginsBelow 0 (bs.bucket? (Category.ofSource s position).title) := by
      intro b hb
      rw [show bs.bucket? (Category.ofSource s position).title = none from hnew] at hb
      simp at hb
    rw [if_pos he, bucket?_foldl_bucketsAfter s.definitions 0 bs hnone]
    by_cases ht : s.title = title
    · subst ht
      rw [if_pos (show (Category.ofSource s position).title = s.title from rfl), hnew]
      unfold grown
      rw [isEmpty_contributionsOf, reserves_zipIdx]
      show (if ((s.offerings ctx.config.itemLimit search).isEmpty
          && !ctx.awaits search s) = true then none
        else some (ctx.bucketOf search s position)) = _
      rw [he]
      cases (s.offerings ctx.config.itemLimit search).isEmpty <;>
        cases ctx.awaits search s <;> simp
    · have ht' : (Category.ofSource s position).title ≠ title := ht
      simp [ht, ht']
  · rw [if_neg he]
    simp [he]

/-! ### What asking all sources makes of the buckets -/

theorem ordered_bucketsAfter {c : Config} (h : bs.Ordered c) (hc : category.BelongsTo c)
    (d : Definition) (index : Nat) :
    (ctx.bucketsAfter search s category bs d index).Ordered c := by
  unfold SearchContext.bucketsAfter
  split
  · exact h.merge hc ..
  · split
    · exact h.reserve hc
    · exact h

theorem ordered_bucketsAfterSource (ctx : SearchContext) (search : String) {c : Config}
    (h : bs.Ordered c)
    (hs : c.sources[position]? = some s) :
    (ctx.bucketsAfterSource search bs s position).Ordered c := by
  have hc : (Category.ofSource s position).BelongsTo c := ⟨position, s, hs, rfl⟩
  unfold SearchContext.bucketsAfterSource
  split
  · generalize s.definitions.zipIdx = ds
    induction ds generalizing bs with
    | nil => exact h
    | cons d rest ih => exact ih (ordered_bucketsAfter h hc d.1 d.2)
  · exact h

/-- Asking a source adds its bucket, if it contributes. -/
theorem mem_bucketsAfterSource {c : Config} (h : bs.Ordered c)
    (hs : c.sources[position]? = some s) (hnew : bs.bucket? s.title = none) (b : Bucket) :
    b ∈ ctx.bucketsAfterSource search bs s position
      ↔ b ∈ bs ∨ ctx.contributes search s = true ∧ b = ctx.bucketOf search s position := by
  have hafter := ordered_bucketsAfterSource ctx search h hs
  rw [Buckets.mem_iff_bucket? hafter.titles, Buckets.mem_iff_bucket? h.titles,
    bucket?_bucketsAfterSource ctx search position hnew]
  constructor
  · intro hb
    split at hb
    · rename_i hboth
      exact Or.inr ⟨hboth.2, (Option.some.inj hb).symm⟩
    · exact Or.inl hb
  · rintro (hb | ⟨hc, rfl⟩)
    · have hne : s.title ≠ b.title := by
        intro heq
        rw [heq, hb] at hnew
        simp at hnew
      rw [if_neg fun hboth => hne hboth.1, hb]
    · rw [if_pos ⟨rfl, hc⟩]

/-- **What a search finds is in order.** -/
theorem ordered_find (ctx : SearchContext) (search : String) (operator : Option Operator)
    (g : Generation) : (ctx.find search operator g).buckets.Ordered ctx.config := by
  refine buckets_find Buckets.ordered_nil (ordered_functionBuckets ctx search ctx.config) ?_ ?_ ..
  · intro bs hbs position s hplace _ d _ o _ index
    exact hbs.merge ⟨position, s, hplace, rfl⟩ ..
  · intro bs hbs position s hplace _ d _ _
    exact hbs.reserve ⟨position, s, hplace, rfl⟩

/-- Over sources with different titles, the buckets are those that were there and those of the
sources that contribute. -/
theorem mem_foldl_bucketsAfterSource {c : Config} (ss : List (Source × Nat))
    (hss : ∀ p ∈ ss, c.sources[p.2]? = some p.1) (htitles : (ss.map (·.1.title)).Nodup)
    (h : bs.Ordered c) (hnew : ∀ p ∈ ss, bs.bucket? p.1.title = none) (b : Bucket) :
    b ∈ ss.foldl (fun bs (s, position) => ctx.bucketsAfterSource search bs s position) bs
      ↔ b ∈ bs ∨ ∃ p ∈ ss, ctx.contributes search p.1 = true ∧ b = ctx.bucketOf search p.1 p.2 := by
  induction ss generalizing bs with
  | nil => simp
  | cons p rest ih =>
      obtain ⟨s, position⟩ := p
      rw [List.map_cons, List.nodup_cons] at htitles
      have hview := bucket?_bucketsAfterSource ctx search position (hnew (s, position) (by simp))
      have hnext := ordered_bucketsAfterSource ctx search h (hss (s, position) (by simp))
      have hrest : ∀ q ∈ rest,
          (ctx.bucketsAfterSource search bs s position).bucket? q.1.title = none := by
        intro q hq
        have hne : s.title ≠ q.1.title := fun heq =>
          htitles.1 (heq ▸ List.mem_map_of_mem (f := fun p : Source × Nat => p.1.title) hq)
        rw [hview, if_neg fun hboth => hne hboth.1]
        exact hnew q (by simp [hq])
      rw [List.foldl_cons, ih (fun q hq => hss q (by simp [hq])) htitles.2 hnext hrest,
        mem_bucketsAfterSource h (hss (s, position) (by simp)) (hnew (s, position) (by simp))]
      simp [or_assoc]

end QueryBar.SearchContext
