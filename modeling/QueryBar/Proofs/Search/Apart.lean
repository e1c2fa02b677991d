/-
Configurations that keep answers apart.

Whether the answers for a text are apart depends on what has been found for it at once.
`KeepsAnswersApart` can be seen from the configuration alone, and is enough for every text:
services of two sources do not answer into one category, and where one of two answers can
remove something while the other is awaited, no list has a limit of nought.

The second part only concerns categories that are `Contested`.  For these, every bucket
that shows nothing has had nothing contributed to it (`Vacant`), which is true of all
buckets that a search comes to.
-/
import QueryBar.Proofs.Search.Arrival

namespace QueryBar

/-- How many services the definitions of the source ask. -/
def Source.serviceCount (s : Source) : Nat := s.definitions.countP (·.asksService)

theorem Source.serviceCount_ne_zero {s : Source} {d : Definition} (hd : d ∈ s.definitions)
    (h : d.asksService = true) : s.serviceCount ≠ 0 := by
  have hpos : 0 < s.serviceCount := List.countP_pos_iff.mpr ⟨d, hd, h⟩
  omega

/-- Two lists of a source that ask services take two services. -/
theorem Source.two_le_serviceCount {s : Source} {i j : Nat} {d e : Definition}
    (hd : s.definitions[i]? = some d) (he : s.definitions[j]? = some e)
    (hdasks : d.asksService = true) (heasks : e.asksService = true) (hlt : i < j) :
    2 ≤ s.serviceCount := by
  have hparts : (s.definitions.take j ++ s.definitions.drop j).countP (·.asksService)
      = (s.definitions.take j).countP (·.asksService)
        + (s.definitions.drop j).countP (·.asksService) := List.countP_append
  rw [List.take_append_drop] at hparts
  have hfirst : d ∈ s.definitions.take j :=
    List.mem_of_getElem? (by rw [List.getElem?_take_of_lt hlt]; exact hd)
  have hsecond : e ∈ s.definitions.drop j :=
    List.mem_of_getElem? (i := 0) (by rw [List.getElem?_drop, Nat.add_zero]; exact he)
  have hone : 0 < (s.definitions.take j).countP (·.asksService) :=
    List.countP_pos_iff.mpr ⟨d, hfirst, hdasks⟩
  have htwo : 0 < (s.definitions.drop j).countP (·.asksService) :=
    List.countP_pos_iff.mpr ⟨e, hsecond, heasks⟩
  unfold serviceCount
  omega

namespace Config

/-- In the category, an empty answer can remove something while another answer is awaited. -/
def Contested (c : Config) (f : Option QueryFunction) (title : String) : Prop :=
  c.showWhenSearching = true ∧
    ∃ s ∈ c.sources, s.eligible f = true ∧ 2 ≤ s.serviceCount ∧ s.title = title

/-- The answers of services do not get in each other's way while the function is active. -/
structure KeepsAnswersApart (c : Config) (f : Option QueryFunction) : Prop where
  /-- The services of two sources do not answer into one category. -/
  titles : ((c.sources.filter fun s => s.eligible f && s.serviceCount != 0).map (·.title)).Nodup
  /-- No list has a limit of nought where one answer can remove what another has left. -/
  limits : ∀ s ∈ c.sources, s.eligible f = true → c.Contested f s.title →
    ∀ l, .list l ∈ s.definitions → l.limit c.itemLimit ≠ 0

variable {c : Config} {f : Option QueryFunction} {s t : Source} {i j : Nat}

/-- Sources that ask services are told apart by their titles. -/
theorem KeepsAnswersApart.eq_of_title (h : c.KeepsAnswersApart f)
    (hnames : (c.sources.map (·.name)).Nodup) (hs : c.sources[i]? = some s)
    (hse : s.eligible f = true) (hsc : s.serviceCount ≠ 0) (ht : c.sources[j]? = some t)
    (hte : t.eligible f = true) (htc : t.serviceCount ≠ 0) (htitle : s.title = t.title) :
    i = j ∧ s = t := by
  have hst : s = t := by
    refine List.inj_on_of_nodup_map h.titles ?_ ?_ htitle
    · exact List.mem_filter.mpr ⟨List.mem_of_getElem? hs, by simp [hse, hsc]⟩
    · exact List.mem_filter.mpr ⟨List.mem_of_getElem? ht, by simp [hte, htc]⟩
  exact place_unique hnames hs ht (by rw [hst])

end Config

/-- What is offered has suggestions, and its limit is nought only if that of a list is. -/
theorem Definition.of_offering? {d : Definition} {s : Source} {standard : Nat} {search : String}
    {o : Offering} (h : d.offering? s standard search = some o) :
    o.options ≠ [] ∧ (o.limit = some 0 → ∃ l, d = .list l ∧ l.limit standard = 0) := by
  cases d with
  | test t =>
      unfold offering? at h
      dsimp only at h
      split at h
      · obtain rfl := Option.some.inj h
        exact ⟨by simp, by simp⟩
      · simp at h
  | list l =>
      unfold offering? at h
      dsimp only at h
      split at h
      · split at h
        · simp at h
        · rename_i hsome
          obtain rfl := Option.some.inj h
          rw [Bool.not_eq_true, Bool.or_eq_false_iff] at hsome
          refine ⟨?_, ?_⟩
          · intro hnil
            have haccepted := List.map_eq_nil_iff.mp hnil
            rw [haccepted] at hsome
            simp at hsome
          · intro hzero
            exact ⟨l, rfl, Option.some.inj hzero⟩
      · simp at h

/-- Where a bucket can be removed while an answer is awaited, it shows nothing only if nothing has
been contributed to it. -/
def Buckets.Vacant (c : Config) (f : Option QueryFunction) (bs : Buckets) : Prop :=
  ∀ position s, c.sources[position]? = some s → s.eligible f = true → 2 ≤ s.serviceCount →
    c.showWhenSearching = true → ∀ b, bs.bucket? s.title = some b → b.isPlaceholder = true →
      b = .empty (.ofSource s position)

namespace SearchContext

variable {ctx : SearchContext} {search : String}

/-- **Where answers are kept apart, what a search has found shows nothing only if it is nothing.** -/
theorem vacant_find (hapart : ctx.config.KeepsAnswersApart ctx.function)
    (hnames : (ctx.config.sources.map (·.name)).Nodup) (operator : Option Operator)
    (g : Generation) :
    (ctx.find search operator g).buckets.Vacant ctx.config ctx.function := by
  refine buckets_find ?_ ?_ ?_ ?_ operator g
  · intro _ s _ _ _ _ b hb
    simp [Buckets.bucket?] at hb
  · intro _ s _ _ _ _ b hb hempty
    have hmem := Buckets.mem_of_bucket? hb
    rw [functionBuckets_eq] at hmem
    split at hmem
    · simp at hmem
    · rename_i hsome
      rw [List.mem_singleton.mp hmem,
        Bucket.isPlaceholder_contribute _ 0 (by simp) (by simpa using hsome)] at hempty
      simp at hempty
  · intro bs hbs place t ht hte d hd o ho index position s hs hse hsc hshow b hb hempty
    rw [Buckets.bucket?_merge] at hb
    split at hb
    · rename_i htitle
      obtain ⟨hoptions, hzero⟩ := Definition.of_offering? ho
      have hlimit : o.limit ≠ some 0 := by
        intro hlimit
        obtain ⟨l, rfl, hl⟩ := hzero hlimit
        have hcontested : ctx.config.Contested ctx.function t.title :=
          ⟨hshow, s, List.mem_of_getElem? hs, hse, hsc, htitle.symm⟩
        exact hapart.limits t (List.mem_of_getElem? ht) hte hcontested l hd hl
      obtain rfl := Option.some.inj hb
      rw [Bucket.isPlaceholder_contribute _ index hlimit hoptions] at hempty
      simp at hempty
    · exact hbs position s hs hse hsc hshow b hb hempty
  · intro bs hbs place t ht hte d hd hservice position s hs hse hsc hshow b hb hempty
    rw [Buckets.bucket?_reserve] at hb
    split at hb
    · rename_i htitle
      have hasks := Source.serviceCount_ne_zero hd (Definition.asksService_of_service? hservice)
      obtain ⟨rfl, rfl⟩ := hapart.eq_of_title hnames hs hse (by omega) ht hte hasks htitle.symm
      cases hentry : bs.bucket? s.title with
      | none =>
          rw [hentry] at hb
          exact (Option.some.inj hb).symm
      | some a =>
          rw [hentry] at hb
          obtain rfl := Option.some.inj hb
          exact hbs position s hs hse hsc hshow a hentry hempty
    · exact hbs position s hs hse hsc hshow b hb hempty

/-- What is at stake for a request of a search is a list of an eligible source. -/
theorem of_mem_stakes {operator : Option Operator} {g : Generation} {title : String} {k : Stake}
    (hnames : (ctx.config.sources.map (·.name)).Nodup)
    (hk : k ∈ ctx.config.stakes title (ctx.find search operator g).pending) :
    ∃ (position : Nat) (s : Source) (l : ListLookup),
      ctx.config.sources[position]? = some s ∧ s.eligible ctx.function = true ∧
        s.definitions[k.origin]? = some (.list l) ∧ l.asksService = true ∧ s.title = title ∧
        k = ⟨.ofSource s position, k.origin, l.limit ctx.config.itemLimit⟩ := by
  obtain ⟨r, hr, hstake, htitle⟩ := Config.mem_stakes.mp hk
  obtain ⟨place, t, l', hplace, heligible, hsource, hlist', hasks⟩ := of_mem_pending hr
  obtain ⟨position, s, l, hs, hname, hlist, rfl⟩ := Config.of_stake? hstake
  obtain ⟨rfl, rfl⟩ := Config.place_unique hnames hs hplace (hname.trans hsource)
  obtain rfl := Definition.list.inj (Option.some.inj (hlist.symm.trans hlist'))
  exact ⟨position, s, l, hs, heligible, hlist, hasks, htitle, rfl⟩

/-- Requests that are answered into one category are about lists of one source. -/
theorem of_mem_stakes_both (hapart : ctx.config.KeepsAnswersApart ctx.function)
    (hnames : (ctx.config.sources.map (·.name)).Nodup) {operator : Option Operator}
    {g : Generation} {title : String} {k k' : Stake}
    (hk : k ∈ ctx.config.stakes title (ctx.find search operator g).pending)
    (hk' : k' ∈ ctx.config.stakes title (ctx.find search operator g).pending) :
    ∃ (position : Nat) (s : Source) (l l' : ListLookup),
      ctx.config.sources[position]? = some s ∧ s.eligible ctx.function = true ∧
        s.title = title ∧
        (s.definitions[k.origin]? = some (.list l) ∧ l.asksService = true) ∧
        (s.definitions[k'.origin]? = some (.list l') ∧ l'.asksService = true) ∧
        k = ⟨.ofSource s position, k.origin, l.limit ctx.config.itemLimit⟩ ∧
        k' = ⟨.ofSource s position, k'.origin, l'.limit ctx.config.itemLimit⟩ := by
  obtain ⟨i, s, l, hs, hse, hl, hasks, htitle, hkl⟩ := of_mem_stakes hnames hk
  obtain ⟨j, t, l', ht, hte, hl', hasks', htitle', hkl'⟩ := of_mem_stakes hnames hk'
  obtain ⟨rfl, rfl⟩ := hapart.eq_of_title hnames hs hse
    (Source.serviceCount_ne_zero (List.mem_of_getElem? hl) hasks) ht hte
    (Source.serviceCount_ne_zero (List.mem_of_getElem? hl') hasks') (htitle.trans htitle'.symm)
  exact ⟨i, s, l, l', hs, hse, htitle, ⟨hl, hasks⟩, ⟨hl', hasks'⟩, hkl, hkl'⟩

/-- **In a configuration that keeps answers apart, they are apart for every text.** -/
theorem apart_find (hapart : ctx.config.KeepsAnswersApart ctx.function)
    (hnames : (ctx.config.sources.map (·.name)).Nodup) (operator : Option Operator)
    (g : Generation) (title : String) :
    Entry.Apart ((ctx.find search operator g).buckets.bucket? title) ctx.config.showWhenSearching
      (ctx.config.stakes title (ctx.find search operator g).pending) := by
  set found := ctx.find search operator g with hfound
  have horigin : ∀ k ∈ ctx.config.stakes title found.pending,
      ∀ k' ∈ ctx.config.stakes title found.pending, k ≠ k' → k.origin ≠ k'.origin := by
    intro k hk k' hk' hne heq
    obtain ⟨_, s, l, l', -, -, -, ⟨hl, -⟩, ⟨hl', -⟩, hkl, hkl'⟩ :=
      of_mem_stakes_both hapart hnames hk hk'
    rw [heq, hl'] at hl
    obtain rfl := Definition.list.inj (Option.some.inj hl)
    exact hne (by rw [hkl, hkl', heq])
  refine ⟨?_, ?_, ?_⟩
  · intro k hk k' hk' hne heq
    exact absurd heq (horigin k hk k' hk' hne)
  · intro k hk k' hk'
    obtain ⟨_, _, _, _, -, -, -, -, -, hkl, hkl'⟩ := of_mem_stakes_both hapart hnames hk hk'
    rw [hkl, hkl']
  · intro hshow k hk k' hk' hne
    obtain ⟨position, s, l, l', hs, hse, htitle, ⟨hl, hasks⟩, ⟨hl', hasks'⟩, -, hkl'⟩ :=
      of_mem_stakes_both hapart hnames hk hk'
    have htwo : 2 ≤ s.serviceCount := by
      rcases Nat.lt_or_gt_of_ne (horigin k hk k' hk' hne) with hlt | hgt
      · exact Source.two_le_serviceCount hl hl' hasks hasks' hlt
      · exact Source.two_le_serviceCount hl' hl hasks' hasks hgt
    have hlimits : ∀ j ∈ ctx.config.stakes title found.pending, j.limit ≠ 0 := by
      intro j hj
      obtain ⟨_, t, m, ht, hte, hm, -, httitle, hjm⟩ := of_mem_stakes hnames hj
      have hcontested : ctx.config.Contested ctx.function t.title :=
        ⟨hshow, s, List.mem_of_getElem? hs, hse, htwo, htitle.trans httitle.symm⟩
      rw [hjm]
      exact hapart.limits t (List.mem_of_getElem? ht) hte hcontested m (List.mem_of_getElem? hm)
    by_cases hseen : ∃ origin, Entry.held (found.buckets.bucket? title) origin ≠ []
    · obtain ⟨origin, hheld⟩ := hseen
      exact Or.inl ⟨origin, hheld, fun j hj _ hzero => absurd hzero (hlimits j hj)⟩
    · have hblank : ∀ origin, Entry.held (found.buckets.bucket? title) origin = [] := by
        simpa using hseen
      refine Or.inr ⟨?_, hlimits k' hk'⟩
      cases hentry : found.buckets.bucket? title with
      | none => rfl
      | some b =>
          rw [hentry] at hblank
          have hproper : b.Proper := proper_find ctx search operator g title b hentry
          have hempty := (Bucket.isPlaceholder_iff hproper).mpr hblank
          rw [← htitle] at hentry
          have hb := vacant_find hapart hnames operator g position s hs hse htwo hshow b hentry hempty
          rw [hb, hkl']
          rfl

end SearchContext

end QueryBar
