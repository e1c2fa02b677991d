/-
A search meets its specification.

The buckets that a search comes to are those of the function names, if there are any, and
then one for each contributing source, sorted once by precedence and place
(`expectedBuckets`).  The list that `find` builds by ranked insertion and this one are both
in order and have the same members, so they are equal (`buckets_find_eq`); what each bucket
shows is then read off its contributions (`options_bucketOf`).
-/
import QueryBar.Proofs.Search.Find

namespace QueryBar

/-! ### The order of the sources -/

namespace Source

variable {a b d : Source × Nat}

theorem comesFirst_iff : comesFirst a b = true ↔
    b.1.rank < a.1.rank ∨ a.1.rank = b.1.rank ∧ a.2 ≤ b.2 := by
  simp [comesFirst]

theorem comesFirst_trans (hab : comesFirst a b = true) (hbd : comesFirst b d = true) :
    comesFirst a d = true := by
  rw [comesFirst_iff] at *
  rcases hab with hab | ⟨heq, hab⟩ <;> rcases hbd with hbd | ⟨heq', hbd⟩
  · exact Or.inl (Int64.lt_trans hbd hab)
  · exact Or.inl (heq' ▸ hab)
  · exact Or.inl (heq ▸ hbd)
  · exact Or.inr ⟨heq.trans heq', Nat.le_trans hab hbd⟩

theorem comesFirst_total (a b : Source × Nat) : (comesFirst a b || comesFirst b a) = true := by
  rw [Bool.or_eq_true, comesFirst_iff, comesFirst_iff]
  by_cases hrank : a.1.rank = b.1.rank
  · rcases Nat.le_total a.2 b.2 with hle | hle
    · exact Or.inl (Or.inr ⟨hrank, hle⟩)
    · exact Or.inr (Or.inr ⟨hrank.symm, hle⟩)
  · rcases Int64.lt_or_lt_of_ne hrank with hlt | hgt
    · exact Or.inr (Or.inl hlt)
    · exact Or.inl (Or.inl hgt)

/-- Sources at different places come first as their categories do. -/
theorem precedes_of_comesFirst (h : comesFirst a b = true) (hplace : a.2 ≠ b.2) :
    (Category.ofSource a.1 a.2).Precedes (Category.ofSource b.1 b.2) := by
  refine Or.inl (Rank.outranks_iff.mpr ?_)
  rcases comesFirst_iff.mp h with hlt | ⟨heq, hle⟩
  · exact Or.inl hlt
  · exact Or.inr ⟨heq, Nat.lt_of_le_of_ne hle hplace⟩

end Source

/-! ### What the bucket of a source shows -/

theorem joinDistinct_nil_eq_firstOfEach (options : List Suggestion) :
    Suggestion.joinDistinct [] options = firstOfEach options :=
  Suggestion.joinDistinct_nil_left options

namespace SearchContext

variable {ctx : SearchContext} {search : String} {operator : Option Operator} {g : Generation}
  {s : Source} {position : Nat}

/-- The contributions of a source hold what counts of its offerings, and their limits. -/
theorem map_contributionsOf (ctx : SearchContext) (search : String) (s : Source)
    (ds : List Definition) (index : Nat) :
    (ctx.contributionsOf search s (ds.zipIdx index)).map (fun c => (c.options, c.limit))
      = (ds.filterMap (·.offering? s ctx.config.itemLimit search)).map
          (fun o => (o.kept, o.limit)) := by
  induction ds generalizing index with
  | nil => rfl
  | cons d rest ih =>
      rw [List.zipIdx_cons, contributionsOf_cons, List.map_append, ih, List.filterMap_cons]
      cases ho : d.offering? s ctx.config.itemLimit search with
      | none => simp [contributionsOf, ho]
      | some o =>
          simp [contributionsOf, ho, Contribution.after, Offering.kept,
            joinDistinct_nil_eq_firstOfEach]

/-- **The bucket of a source shows what the specification says.** -/
theorem options_bucketOf : (ctx.bucketOf search s position).options
    = s.shown ctx.config.itemLimit search := by
  have hmap := map_contributionsOf ctx search s s.definitions 0
  have hoptions : (ctx.bucketOf search s position).contributions.flatMap (·.options)
      = (s.offerings ctx.config.itemLimit search).flatMap (·.kept) := by
    have h := congrArg (List.flatMap Prod.fst) hmap
    rw [List.flatMap_map, List.flatMap_map] at h
    exact h
  have hcap : Contribution.cap (ctx.bucketOf search s position).contributions
      = Offering.cap (s.offerings ctx.config.itemLimit search) := by
    have hlimits := congrArg (List.map Prod.snd) hmap
    rw [List.map_map, List.map_map] at hlimits
    have hany := congrArg (List.any · Option.isNone) hlimits
    have hall := congrArg (List.filterMap id) hlimits
    rw [List.any_map, List.any_map] at hany
    rw [List.filterMap_map, List.filterMap_map] at hall
    show (if _ then none else List.max? _) = if _ then none else List.max? _
    exact if_congr (iff_of_eq (congrArg (· = true) hany)) rfl (congrArg List.max? hall)
  rw [Bucket.options_eq, hoptions, hcap, joinDistinct_nil_eq_firstOfEach]
  rfl

/-! ### The bucket of the function names -/

theorem options_functionBucket (names : List Suggestion) :
    ((Bucket.empty .functions).contribute 0 names none).options = firstOfEach names := by
  have hcontributions : ((Bucket.empty .functions).contribute 0 names none).contributions
      = [.after [] 0 names none] := rfl
  have hdistinct := Suggestion.pairwise_joinDistinct names List.Pairwise.nil
  rw [Bucket.options_eq, hcontributions, ← joinDistinct_nil_eq_firstOfEach]
  show Suggestion.joinDistinct [] (Suggestion.joinDistinct [] names ++ []) = _
  rw [List.append_nil, Suggestion.joinDistinct_of_pairwise (by simpa using hdistinct),
    List.nil_append]

/-! ### The buckets that are expected -/

theorem mem_contributors {p : Source × Nat} : p ∈ ctx.contributors search
    ↔ ctx.config.sources[p.2]? = some p.1 ∧ ctx.contributes search p.1 = true := by
  unfold contributors
  rw [List.mem_mergeSort, List.mem_filter, List.mem_zipIdx_iff_getElem?]

theorem exists_sublist_contributors (ctx : SearchContext) (search : String) :
    ∃ ps, (ctx.contributors search).Perm ps ∧ ps.Sublist ctx.config.sources.zipIdx :=
  ⟨_, List.mergeSort_perm _ Source.comesFirst, List.filter_sublist⟩

/-- Each contributing source comes before those after it, and stands at another place. -/
theorem pairwise_contributors (ctx : SearchContext) (search : String) :
    (ctx.contributors search).Pairwise fun a b => Source.comesFirst a b = true ∧ a.2 ≠ b.2 := by
  refine List.pairwise_and_iff.mpr ⟨?_, ?_⟩
  · unfold contributors
    refine List.pairwise_mergeSort ?_ Source.comesFirst_total _
    intro a b d hab hbd
    exact Source.comesFirst_trans hab hbd
  · have hplaces : (ctx.config.sources.zipIdx.map Prod.snd).Nodup := by
      rw [List.zipIdx_map_snd]
      exact List.nodup_range'
    obtain ⟨ps, hperm, hsub⟩ := exists_sublist_contributors ctx search
    have hnodup : (ps.map Prod.snd).Nodup := hplaces.sublist (hsub.map Prod.snd)
    exact List.pairwise_map.mp ((hperm.map Prod.snd).nodup_iff.mpr hnodup)

/-- The buckets of the contributing sources, after those of the function names. -/
def expectedBuckets (ctx : SearchContext) (search : String) : Buckets :=
  ctx.functionBuckets search ++
    (ctx.contributors search).map fun (s, position) => ctx.bucketOf search s position

theorem nodup_titles_zipIdx {ss : List Source} (h : (ss.map (·.title)).Nodup) :
    (ss.zipIdx.map (·.1.title)).Nodup := by
  have heq : ss.zipIdx.map (·.1.title) = ss.map (·.title) := by
    conv_rhs => rw [← List.zipIdx_map_fst 0 ss, List.map_map]
    rfl
  exact heq ▸ h

/-- The titles of the contributing sources are different where those of all sources are. -/
theorem nodup_titles_contributors (htitles : (ctx.config.sources.map (·.title)).Nodup) :
    ((ctx.contributors search).map (·.1.title)).Nodup := by
  obtain ⟨ps, hperm, hsub⟩ := exists_sublist_contributors ctx search
  have hnodup : (ps.map (·.1.title)).Nodup :=
    (nodup_titles_zipIdx htitles).sublist (hsub.map _)
  exact (hperm.map _).nodup_iff.mpr hnodup

theorem ordered_expectedBuckets (search : String)
    (htitles : (ctx.config.sources.map (·.title)).Nodup)
    (hfunctions : Category.functionsTitle ∉ ctx.config.sources.map (·.title)) :
    (ctx.expectedBuckets search).Ordered ctx.config := by
  have hnames := ordered_functionBuckets ctx search ctx.config
  refine ⟨?_, ?_, ?_⟩
  · unfold expectedBuckets
    rw [List.map_append, List.map_map]
    refine List.nodup_append.mpr ⟨hnames.titles, nodup_titles_contributors htitles, ?_⟩
    rintro title hname _ hsource rfl
    obtain ⟨b, hb, hbt⟩ := List.mem_map.mp hname
    obtain ⟨p, hp, hpt⟩ := List.mem_map.mp hsource
    have hbf : b.title = Category.functionsTitle :=
      congrArg Category.title (category_of_mem_functionBuckets hb)
    have hps : p.1.title = title := hpt
    refine hfunctions (List.mem_map.mpr ⟨p.1, ?_, hps.trans (hbt.symm.trans hbf)⟩)
    exact List.mem_of_getElem? (mem_contributors.mp hp).1
  · intro b hb
    rcases List.mem_append.mp hb with hname | hsource
    · exact hnames.owned b hname
    · obtain ⟨p, hp, rfl⟩ := List.mem_map.mp hsource
      exact Or.inr ⟨p.2, p.1, (mem_contributors.mp hp).1, rfl⟩
  · refine List.pairwise_append.mpr ⟨hnames.ranked, ?_, ?_⟩
    · refine List.pairwise_map.mpr ((pairwise_contributors ctx search).imp ?_)
      rintro a b ⟨hfirst, hplace⟩
      exact Source.precedes_of_comesFirst hfirst hplace
    · intro a ha b _
      exact Or.inr (category_of_mem_functionBuckets ha)

/-! ### The buckets that are found -/

/-- **A search finds the expected buckets.** -/
theorem buckets_find_eq (h : ¬ ctx.tooShort search)
    (htitles : (ctx.config.sources.map (·.title)).Nodup)
    (hfunctions : Category.functionsTitle ∉ ctx.config.sources.map (·.title)) :
    (ctx.find search operator g).buckets = ctx.expectedBuckets search := by
  have hplaces : ∀ p ∈ ctx.config.sources.zipIdx, ctx.config.sources[p.2]? = some p.1 :=
    fun p hp => List.mem_zipIdx_iff_getElem?.mp hp
  have hnames := ordered_functionBuckets ctx search ctx.config
  have hnew : ∀ p ∈ ctx.config.sources.zipIdx,
      (ctx.functionBuckets search).bucket? p.1.title = none := by
    intro p hp
    refine Buckets.bucket?_eq_none.mpr ?_
    intro b hb htitle
    have hbf : b.title = Category.functionsTitle :=
      congrArg Category.title (category_of_mem_functionBuckets hb)
    exact hfunctions (List.mem_map.mpr
      ⟨p.1, List.mem_of_getElem? (hplaces p hp), htitle.symm.trans hbf⟩)
  have hexpected := ordered_expectedBuckets search htitles hfunctions
  have hmem : ∀ b, b ∈ (ctx.find search operator g).buckets ↔ b ∈ ctx.expectedBuckets search := by
    intro b
    rw [find_eq h, expectedBuckets, List.mem_append, List.mem_map]
    show b ∈ List.foldl _ _ _ ↔ _
    rw [mem_foldl_bucketsAfterSource _ hplaces (nodup_titles_zipIdx htitles) hnames hnew]
    refine or_congr_right ?_
    constructor
    · rintro ⟨p, hp, hcontributes, rfl⟩
      exact ⟨p, mem_contributors.mpr ⟨hplaces p hp, hcontributes⟩, rfl⟩
    · rintro ⟨p, hp, rfl⟩
      obtain ⟨hplace, hcontributes⟩ := mem_contributors.mp hp
      exact ⟨p, List.mem_zipIdx_iff_getElem?.mpr hplace, hcontributes, rfl⟩
  exact (ordered_find ctx search operator g).eq_of_mem hexpected hmem

/-- The expected buckets have the expected titles and show what is expected. -/
theorem map_expectedBuckets (ctx : SearchContext) (search : String) :
    (ctx.expectedBuckets search).map (fun b => (b.title, b.options))
      = ctx.expectedCategories search := by
  unfold expectedBuckets expectedCategories
  rw [List.map_append, List.map_map, functionBuckets_eq]
  congr 1
  · split
    · rfl
    · rw [List.map_singleton, options_functionBucket]
      rfl
  · refine List.map_congr_left ?_
    intro p _
    show (p.1.title, (ctx.bucketOf search p.1 p.2).options) = _
    rw [options_bucketOf]

/-! ### The requests that are handed out -/

theorem pending_find_eq (h : ¬ ctx.tooShort search) :
    (ctx.find search operator g).pending = ctx.expectedRequests search operator g := by
  rw [find_eq h]
  unfold expectedRequests
  show ctx.config.sources.flatMap _ = _
  induction ctx.config.sources with
  | nil => rfl
  | cons s rest ih =>
      rw [List.flatMap_cons, List.filter_cons, ih]
      unfold requestsFor
      by_cases he : s.eligible ctx.function = true
      · rw [if_pos he, if_pos he, List.flatMap_cons]
        rfl
      · rw [if_neg he, if_neg he, List.nil_append]

/-! ### The specification is met -/

/-- **A search comes to what its specification says**: to nothing if the text is too short,
otherwise to the expected requests and categories, if titles tell the sources apart. -/
theorem find_meets_specification (ctx : SearchContext) (search : String)
    (operator : Option Operator) (g : Generation)
    (htitles : (ctx.config.sources.map (·.title)).Nodup)
    (hfunctions : Category.functionsTitle ∉ ctx.config.sources.map (·.title)) :
    (ctx.tooShort search →
      (ctx.find search operator g).buckets = [] ∧ (ctx.find search operator g).pending = []) ∧
    (¬ ctx.tooShort search →
      (ctx.find search operator g).pending = ctx.expectedRequests search operator g ∧
      (ctx.find search operator g).buckets.map (fun b => (b.title, b.options))
        = ctx.expectedCategories search) := by
  constructor
  · intro hshort
    rw [find_of_tooShort hshort]
    exact ⟨rfl, rfl⟩
  · intro hlong
    refine ⟨pending_find_eq hlong, ?_⟩
    rw [buckets_find_eq hlong htitles hfunctions]
    exact map_expectedBuckets ctx search

/-- Two sources of texts, the second of which comes first, and one that asks a service. -/
def threeSources : SearchContext where
  config :=
    { Config.ofSources
        [{ name := "colour", title := "Colours", comparisons := ["="]
           definitions := [.list { supply := .items [.text "red", .text "blue", .text "green"] }] },
         { name := "size", title := "Sizes", comparisons := ["="], precedence := some 1
           definitions := [.list { supply := .items [.text "regular", .text "small"] }] },
         { name := "shade", title := "Shades", comparisons := ["="]
           definitions := [.list { supply := .service ⟨fun _ => [], fun _ => 0⟩ }] }] with
      showWhenSearching := true }

theorem find_meets_specification_threeSources :
    let ctx := threeSources
    (ctx.config.sources.map (·.title)).Nodup ∧
      Category.functionsTitle ∉ ctx.config.sources.map (·.title) ∧
      (ctx.find "re" none (.fresh 0)).pending = ctx.expectedRequests "re" none (.fresh 0) ∧
      (ctx.find "re" none (.fresh 0)).buckets.map (fun b => (b.title, b.options))
        = ctx.expectedCategories "re" ∧
      (ctx.find "re" none (.fresh 0)).buckets.map (fun b => (b.title, b.options.map (·.text)))
        = [("Sizes", ["regular"]), ("Colours", ["red", "green"]), ("Shades", [])] := by
  have htitles : (threeSources.config.sources.map (·.title)).Nodup := by decide
  have hfunctions : Category.functionsTitle ∉ threeSources.config.sources.map (·.title) := by
    decide
  have hlong : ¬ threeSources.tooShort "re" := by
    unfold tooShort
    decide
  obtain ⟨hpending, hbuckets⟩ :=
    (find_meets_specification threeSources "re" none (.fresh 0) htitles hfunctions).2 hlong
  exact ⟨htitles, hfunctions, hpending, hbuckets, by decide⟩

end SearchContext

end QueryBar
