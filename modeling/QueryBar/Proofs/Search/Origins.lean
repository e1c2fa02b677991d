/-
Where suggestions are from.

A search asks eligible sources only, so that whatever it finds at once is from one of them or is
the name of a function, and function names are found only where they are asked for
(`SearchContext.Offers`).  Its requests are made to eligible sources as well, and an answer
carries the name of the source of its request.  What comes in later is therefore from where the
rest is from, however long ago that was.

Function names come in when the search is made and never after it, if no source goes by the name
that is theirs.
-/
import QueryBar.Proofs.Buckets.Shown
import QueryBar.Proofs.Search.Arrival

namespace QueryBar

variable {s : Source} {o : Suggestion} {P : Bucket → Prop}

theorem source_of_mem_suggestions {l : ListLookup} {items : List Item}
    (h : o ∈ l.suggestions s items) : o.source = s.name := by
  obtain ⟨item, -, rfl⟩ := List.mem_map.mp h
  rfl

/-- A definition makes suggestions in the name of its source. -/
theorem Definition.source_of_offering? {d : Definition} {standard : Nat} {search : String}
    {offering : Offering} (h : d.offering? s standard search = some offering)
    (ho : o ∈ offering.options) : o.source = s.name := by
  cases d with
  | list l =>
      unfold offering? at h
      dsimp only at h
      split at h
      · split at h
        · contradiction
        · obtain rfl := Option.some.inj h
          exact source_of_mem_suggestions ho
      · contradiction
  | test t =>
      unfold offering? at h
      dsimp only at h
      split at h
      · obtain rfl := Option.some.inj h
        rw [List.mem_singleton.mp ho]
      · contradiction

/-- No source goes by the name that suggestions of function names carry. -/
def Config.ReservesFunctionSource (c : Config) : Prop := ∀ s ∈ c.sources, s.name ≠ functionSource

theorem Config.ReservesFunctionSource.isFunction_eq_false {c : Config}
    (h : c.ReservesFunctionSource) (hs : s ∈ c.sources) (ho : o.source = s.name) :
    o.isFunction = false := by
  unfold Suggestion.isFunction
  rw [ho]
  exact beq_eq_false_iff_ne.mpr (h s hs)

/-! ### Answers -/

namespace Buckets

variable {bs : Buckets} {c : Config} {a : LookupAnswer}

/-- What is true of each bucket stays true of each when an answer is put in, if it does when the
answered list of the source contributes. -/
theorem forall_withAnswer_of_list (h : ∀ b ∈ bs, P b) (hempty : ∀ category, P (.empty category))
    (hcontribute : ∀ s ∈ c.sources, s.name = a.source → ∀ l,
      s.definitions[a.definition]? = some (.list l) →
        ∀ b limit, P b → P (b.contribute a.definition (l.suggestions s a.items) limit)) :
    ∀ b ∈ bs.withAnswer c a, P b := by
  unfold withAnswer withAnswer?
  split
  · exact h
  · rename_i position s hfound
    obtain ⟨hplace, hname⟩ := Config.of_sourceAt? hfound
    split
    · rename_i l hlist
      split
      · exact forall_merge h (hempty _) fun b hb =>
          hcontribute s (List.mem_of_getElem? hplace) hname l hlist b _ hb
      · split
        · dsimp only
          split
          · exact h
          · exact forall_release h _
        · exact h
    · exact h

theorem forall_withAnswers_of_list (answers : List LookupAnswer) (h : ∀ b ∈ bs, P b)
    (hempty : ∀ category, P (.empty category))
    (hcontribute : ∀ a ∈ answers, ∀ s ∈ c.sources, s.name = a.source → ∀ l,
      s.definitions[a.definition]? = some (.list l) →
        ∀ b limit, P b → P (b.contribute a.definition (l.suggestions s a.items) limit)) :
    ∀ b ∈ bs.withAnswers c answers, P b := by
  induction answers generalizing bs with
  | nil => exact h
  | cons a rest ih =>
      refine ih ?_ fun a ha => hcontribute a (List.mem_cons_of_mem _ ha)
      exact forall_withAnswer_of_list h hempty (hcontribute a List.mem_cons_self)

/-- It is enough to know of what source the suggestions are. -/
theorem forall_withAnswer (h : ∀ b ∈ bs, P b) (hempty : ∀ category, P (.empty category))
    (hcontribute : ∀ s ∈ c.sources, s.name = a.source → ∀ options,
      (∀ o ∈ options, o.source = s.name) →
        ∀ b limit, P b → P (b.contribute a.definition options limit)) :
    ∀ b ∈ bs.withAnswer c a, P b :=
  forall_withAnswer_of_list h hempty fun s hs hname _ _ =>
    hcontribute s hs hname _ fun _ ho => source_of_mem_suggestions ho

theorem forall_withAnswers (answers : List LookupAnswer) (h : ∀ b ∈ bs, P b)
    (hempty : ∀ category, P (.empty category))
    (hcontribute : ∀ a ∈ answers, ∀ s ∈ c.sources, s.name = a.source → ∀ options,
      (∀ o ∈ options, o.source = s.name) →
        ∀ b limit, P b → P (b.contribute a.definition options limit)) :
    ∀ b ∈ bs.withAnswers c answers, P b :=
  forall_withAnswers_of_list answers h hempty fun a ha s hs hname _ _ =>
    hcontribute a ha s hs hname _ fun _ ho => source_of_mem_suggestions ho

end Buckets

/-! ### Searches -/

namespace SearchContext

variable {ctx : SearchContext} {search : String} {operator : Option Operator} {g : Generation}

theorem forall_find_of_offering (hempty : ∀ category, P (.empty category))
    (hnames : ctx.allowFunctions = true → ∀ b, P b → ∀ limit,
      P (b.contribute 0 (ctx.functionNames search) limit))
    (hcontribute : ∀ s ∈ ctx.config.sources, s.eligible ctx.function = true →
      ∀ d ∈ s.definitions, ∀ offering,
        d.offering? s ctx.config.itemLimit search = some offering →
          ∀ b origin limit, P b → P (b.contribute origin offering.options limit)) :
    ∀ b ∈ (ctx.find search operator g).buckets, P b := by
  refine buckets_find (P := fun bs => ∀ b ∈ bs, P b) (by simp) ?_ ?_ ?_ operator g
  · intro b hb
    rw [functionBuckets_eq] at hb
    split at hb
    · contradiction
    · rename_i hsome
      rw [List.mem_singleton.mp hb]
      refine hnames ?_ _ (hempty _) none
      by_contra hno
      exact hsome (by simp [functionNames, hno])
  · intro bs hbs position s hplace heligible d hd offering hoffering index
    exact Buckets.forall_merge hbs (hempty _) fun b hb =>
      hcontribute s (List.mem_of_getElem? hplace) heligible d hd offering hoffering b index _ hb
  · intro bs hbs position s _ _ d _ _
    exact Buckets.forall_reserve hbs (hempty _)

theorem forall_find (hempty : ∀ category, P (.empty category))
    (hnames : ctx.allowFunctions = true → ∀ b, P b → ∀ limit,
      P (b.contribute 0 (ctx.functionNames search) limit))
    (hcontribute : ∀ s ∈ ctx.config.sources, s.eligible ctx.function = true → ∀ options,
      (∀ o ∈ options, o.source = s.name) →
        ∀ b origin limit, P b → P (b.contribute origin options limit)) :
    ∀ b ∈ (ctx.find search operator g).buckets, P b :=
  forall_find_of_offering hempty hnames fun s hs heligible d _ _ hoffering =>
    hcontribute s hs heligible _ fun _ ho => d.source_of_offering? hoffering ho

/-- The suggestion may come of a search: it is a function name and these are asked for, or it is
from a source that is eligible. -/
def Offers (ctx : SearchContext) (o : Suggestion) : Prop :=
  (ctx.allowFunctions = true ∧ o.isFunction = true) ∨
    ∃ s ∈ ctx.config.sources, s.eligible ctx.function = true ∧ s.name = o.source

theorem isFunction_of_mem_functionNames (h : o ∈ ctx.functionNames search) :
    o.isFunction = true := by
  unfold functionNames at h
  split at h
  · obtain ⟨f, -, rfl⟩ := List.mem_map.mp h
    exact beq_self_eq_true functionSource
  · contradiction

/-- **All that a search comes to is from eligible sources**, or a function name that was asked for,
whatever its requests have been answered with. -/
theorem offers_of_shown {answers : List LookupAnswer}
    (hanswers : ∀ a ∈ answers, ∃ r ∈ (ctx.find search operator g).pending, a.source = r.source)
    (ho : ((ctx.find search operator g).buckets.withAnswers ctx.config answers).Shows o) :
    ctx.Offers o := by
  have hheld : ∀ b ∈ (ctx.find search operator g).buckets.withAnswers ctx.config answers,
      b.Holds ctx.Offers := by
    refine Buckets.forall_withAnswers answers ?_ (Bucket.holds_empty _) ?_
    · refine forall_find (Bucket.holds_empty _) ?_ ?_
      · intro hallowed b hb limit
        exact hb.contribute fun o ho => Or.inl ⟨hallowed, isFunction_of_mem_functionNames ho⟩
      · intro s hs heligible options hsource b origin limit hb
        exact hb.contribute fun o ho => Or.inr ⟨s, hs, heligible, (hsource o ho).symm⟩
    · intro a ha s hs hname options hsource b limit hb
      obtain ⟨r, hr, hsame⟩ := hanswers a ha
      obtain ⟨position, s', -, hplace, heligible, hrequest, -, -⟩ := of_mem_pending hr
      refine hb.contribute fun o ho => Or.inr ⟨s', List.mem_of_getElem? hplace, heligible, ?_⟩
      rw [hsource o ho, hname, hsame, hrequest]
  obtain ⟨b, hb, hshown⟩ := ho
  exact (hheld b hb).shown hshown

/-! ### Function names -/

/-- What a search comes to has its function names in front. -/
theorem fronts_withAnswers (hreserved : ctx.config.ReservesFunctionSource)
    (answers : List LookupAnswer) :
    ∀ b ∈ (ctx.find search operator g).buckets.withAnswers ctx.config answers, b.Fronts := by
  have hplain : ∀ s ∈ ctx.config.sources, ∀ options : List Suggestion,
      (∀ o ∈ options, o.source = s.name) → ∀ o ∈ options, o.isFunction = false :=
    fun s hs options hsource o ho => hreserved.isFunction_eq_false hs (hsource o ho)
  have hcontribute : ∀ s ∈ ctx.config.sources, ∀ options : List Suggestion,
      (∀ o ∈ options, o.source = s.name) → ∀ (b : Bucket) (origin : Nat) (limit : Option Nat),
        b.Fronts → (b.contribute origin options limit).Fronts := by
    intro s hs options hsource b origin limit hb
    refine hb.contribute ?_
    rintro ⟨o, ho, hfunction⟩
    rw [hplain s hs options hsource o ho] at hfunction
    contradiction
  refine Buckets.forall_withAnswers answers ?_ Bucket.fronts_empty ?_
  · refine forall_find Bucket.fronts_empty ?_ ?_
    · intro _ b hb limit
      exact hb.contribute fun _ => rfl
    · intro s hs _ options hsource b origin limit hb
      exact hcontribute s hs options hsource b origin limit hb
  · intro a _ s hs _ options hsource b limit hb
    exact hcontribute s hs options hsource b a.definition limit hb

end SearchContext

/-- **No answer brings in a function name.** -/
theorem Buckets.exists_function_of_withAnswer {bs : Buckets} {c : Config} {a : LookupAnswer}
    (hreserved : c.ReservesFunctionSource) (hfronts : ∀ b ∈ bs, b.Fronts)
    (h : ∃ o, (bs.withAnswer c a).Shows o ∧ o.isFunction = true) :
    ∃ o, bs.Shows o ∧ o.isFunction = true := by
  by_contra hnone
  have hbefore : ∀ b ∈ bs, b.Holds (·.isFunction = false) := by
    intro b hb contribution hcontribution o ho
    refine Bool.eq_false_iff.mpr fun hfunction => hnone ⟨o, ⟨b, hb, ?_⟩, hfunction⟩
    exact (hfronts b hb).shown hcontribution ho hfunction
  have hafter : ∀ b ∈ bs.withAnswer c a, b.Holds (·.isFunction = false) := by
    refine forall_withAnswer hbefore (Bucket.holds_empty _) ?_
    intro s hs _ options hsource b limit hb
    exact hb.contribute fun o ho => hreserved.isFunction_eq_false hs (hsource o ho)
  obtain ⟨o, ⟨b, hb, ho⟩, hfunction⟩ := h
  have hplain : o.isFunction = false := (hafter b hb).shown ho
  rw [hplain] at hfunction
  contradiction

end QueryBar
