/-
What a category comes to once all services have answered.

A category gathers contributions: first what is known at once, then what answers bring, in
whatever order.  `Entry.Gathers` says which contributions there are and nothing about when
they came.  As contributions stand in the order of their definitions, they settle the
bucket, except where there are none: then there may be no bucket, or one whose place is
still kept.

The place is not kept for good.  Where limits are not nought, every answer leaves the
category either with something to show or without a bucket, if empty answers release it at
all (`Entry.Shown`).  So what an entry gathers settles it once it has been answered
(`Entry.Gathers.unique`).
-/
import QueryBar.Proofs.Search.Apart
import QueryBar.Proofs.Search.Outcome

namespace QueryBar

/-- What an answer contributes, if its definition has contributed nothing before. -/
def Stake.contribution? (k : Stake) (options : List Suggestion) : Option Contribution :=
  if options.isEmpty then none else some (.after [] k.origin options (some k.limit))

theorem Contribution.options_after_ne_nil {origin : Nat} {options : List Suggestion}
    {limit : Option Nat} (hoptions : options ≠ []) (hlimit : limit ≠ some 0) :
    (after [] origin options limit).options ≠ [] :=
  capped_ne_nil hlimit (Suggestion.joinDistinct_ne_nil (Or.inr hoptions))

namespace Entry

variable {entry entry' : Entry} {category : Category} {cs cs' : List Contribution}
  {releases : Bool} {k : Stake} {options : List Suggestion} {given : List (Stake × List Suggestion)}

/-- The contributions of the entry are the given ones. -/
structure Gathers (entry : Entry) (category : Category) (cs : List Contribution) : Prop where
  bucket : ∀ b, entry = some b →
    b.category = category ∧ b.Proper ∧ ∀ c, c ∈ b.contributions ↔ c ∈ cs
  vacant : entry = none → cs = []

/-- Where there is a bucket, it shows something. -/
def Shown (entry : Entry) : Prop := ∀ b, entry = some b → b.isPlaceholder = false

/-! ### One answer -/

/-- The bucket that a contribution goes into has what was gathered. -/
theorem Gathers.opened (h : entry.Gathers category cs) :
    (entry.opened category).category = category ∧ (entry.opened category).Proper ∧
      ∀ c, c ∈ (entry.opened category).contributions ↔ c ∈ cs := by
  cases entry with
  | none => exact ⟨rfl, Bucket.proper_empty category, by simp [opened, Bucket.empty, h.vacant rfl]⟩
  | some b => exact h.bucket b rfl

/-- A bucket shows nothing just when nothing was gathered. -/
theorem Gathers.isPlaceholder_iff {b : Bucket} (h : Gathers (some b) category cs)
    (hseen : ∀ c ∈ cs, c.options ≠ []) : b.isPlaceholder = true ↔ cs = [] := by
  obtain ⟨-, hproper, hmem⟩ := h.bucket b rfl
  rw [Bucket.isPlaceholder_iff hproper]
  refine (Contribution.held_eq_nil_iff hproper.ascending).trans ?_
  constructor
  · intro hnone
    refine List.eq_nil_iff_forall_not_mem.mpr ?_
    exact fun c hc => hseen c hc (hnone c ((hmem c).mpr hc))
  · rintro rfl c hc
    exact absurd ((hmem c).mp hc) List.not_mem_nil

/-- A release takes nothing away that was gathered. -/
theorem Gathers.released (h : entry.Gathers category cs) (hseen : ∀ c ∈ cs, c.options ≠ []) :
    entry.released.Gathers category cs := by
  cases entry with
  | none => exact h
  | some b =>
      cases hb : b.isPlaceholder with
      | false =>
          rw [show Entry.released (some b) = some b by simp [Entry.released, hb]]
          exact h
      | true =>
          rw [show Entry.released (some b) = none by simp [Entry.released, hb]]
          exact ⟨by simp, fun _ => (h.isPlaceholder_iff hseen).mp hb⟩

/-- **An answer adds its contribution to what was gathered.** -/
theorem Gathers.after (h : entry.Gathers category cs) (hseen : ∀ c ∈ cs, c.options ≠ [])
    (hk : k.category = category) (hfresh : ∀ c ∈ cs, c.origin ≠ k.origin) (releases : Bool)
    (options : List Suggestion) :
    (entry.after releases k options).Gathers category (cs ++ (k.contribution? options).toList) := by
  by_cases hoptions : options = []
  · subst hoptions
    rw [after_of_empty]
    show Gathers _ _ (cs ++ [])
    rw [List.append_nil]
    split
    · exact h.released hseen
    · exact h
  · have hnew : k.contribution? options = some (.after [] k.origin options (some k.limit)) :=
      if_neg (by simpa using hoptions)
    rw [after_of_ne_nil releases k hoptions, hnew, hk]
    obtain ⟨hcategory, hproper, hmem⟩ := h.opened
    refine ⟨?_, by simp⟩
    intro b hb
    obtain rfl := Option.some.inj hb
    refine ⟨hcategory, hproper.contribute .., ?_⟩
    intro c
    show c ∈ Contribution.insert _ _ _ _ ↔ _
    rw [Contribution.mem_insert_of_fresh fun d hd => hfresh d ((hmem d).mp hd), hmem]
    simp [or_comm]

/-- An answer leaves nothing behind that shows nothing, if it can release a place. -/
theorem shown_after (h : releases = true ∨ entry.Shown) (hlimit : k.limit ≠ 0)
    (options : List Suggestion) : (entry.after releases k options).Shown := by
  by_cases hoptions : options = []
  · subst hoptions
    rw [after_of_empty]
    split
    · intro b hb
      simpa using (Option.filter_eq_some_iff.mp hb).2
    · rename_i hkeeps
      exact h.resolve_left hkeeps
  · rw [after_of_ne_nil releases k hoptions]
    intro b hb
    obtain rfl := Option.some.inj hb
    exact Bucket.isPlaceholder_contribute _ _ (by simpa using hlimit) hoptions

/-! ### All answers -/

/-- **Answers for different definitions add their contributions.** -/
theorem Gathers.afterAll (h : entry.Gathers category cs) (hseen : ∀ c ∈ cs, c.options ≠ [])
    (hgiven : ∀ p ∈ given, p.1.category = category ∧ p.1.limit ≠ 0)
    (horigins : (given.map (·.1.origin)).Nodup)
    (hfresh : ∀ c ∈ cs, ∀ p ∈ given, c.origin ≠ p.1.origin) (releases : Bool) :
    (entry.afterAll releases given).Gathers category
      (cs ++ given.filterMap fun p => p.1.contribution? p.2) := by
  induction given generalizing entry cs with
  | nil =>
      rw [List.filterMap_nil, List.append_nil]
      exact h
  | cons p rest ih =>
      obtain ⟨k, options⟩ := p
      obtain ⟨hk, hlimit⟩ := hgiven (k, options) List.mem_cons_self
      rw [List.map_cons, List.nodup_cons] at horigins
      have hadded : ∀ c, k.contribution? options = some c →
          c.origin = k.origin ∧ c.options ≠ [] := by
        intro c hc
        unfold Stake.contribution? at hc
        split at hc
        · contradiction
        · rename_i hoptions
          obtain rfl := Option.some.inj hc
          exact ⟨rfl, Contribution.options_after_ne_nil (by simpa using hoptions)
            (by simpa using hlimit)⟩
      have hstep := h.after hseen hk (fun c hc => hfresh c hc _ List.mem_cons_self) releases options
      have hsplit : ((k, options) :: rest).filterMap (fun p => p.1.contribution? p.2)
          = (k.contribution? options).toList
            ++ rest.filterMap fun p => p.1.contribution? p.2 := by
        rw [List.filterMap_cons]
        dsimp only
        cases k.contribution? options <;> rfl
      rw [hsplit, ← List.append_assoc]
      refine ih hstep ?_ (fun p hp => hgiven p (List.mem_cons_of_mem _ hp)) horigins.2 ?_
      · intro c hc
        rcases List.mem_append.mp hc with hold | hnew
        · exact hseen c hold
        · exact (hadded c (Option.mem_toList.mp hnew)).2
      · intro c hc q hq
        rcases List.mem_append.mp hc with hold | hnew
        · exact hfresh c hold q (List.mem_cons_of_mem _ hq)
        · rw [(hadded c (Option.mem_toList.mp hnew)).1]
          intro heq
          exact horigins.1 (List.mem_map.mpr ⟨q, hq, heq.symm⟩)

theorem Shown.afterAll (h : entry.Shown) (hgiven : ∀ p ∈ given, p.1.limit ≠ 0) (releases : Bool) :
    (entry.afterAll releases given).Shown := by
  induction given generalizing entry with
  | nil => exact h
  | cons p rest ih =>
      exact ih (shown_after (Or.inr h) (hgiven p List.mem_cons_self) p.2)
        fun q hq => hgiven q (List.mem_cons_of_mem _ hq)

/-- After any answer that can release a place, no place is kept. -/
theorem shown_afterAll (h : releases = true ∧ given ≠ [] ∨ entry.Shown)
    (hgiven : ∀ p ∈ given, p.1.limit ≠ 0) : (entry.afterAll releases given).Shown := by
  rcases h with ⟨hreleases, hsome⟩ | hshown
  · cases given with
    | nil => exact absurd rfl hsome
    | cons p rest =>
        exact Shown.afterAll (shown_after (Or.inl hreleases) (hgiven p List.mem_cons_self) p.2)
          (fun q hq => hgiven q (List.mem_cons_of_mem _ hq)) releases
  · exact hshown.afterAll hgiven releases

/-! ### What settles an entry -/

/-- Where nothing was gathered, no bucket shows anything. -/
theorem Gathers.eq_none (h : entry.Gathers category []) (hshown : entry.Shown) : entry = none := by
  cases entry with
  | none => rfl
  | some b =>
      have hempty : b.isPlaceholder = true := (h.isPlaceholder_iff (by simp)).mpr rfl
      exact absurd (hshown b rfl) (by simp [hempty])

/-- **Entries that gather the same and keep no place are the same.** -/
theorem Gathers.unique (h : entry.Gathers category cs) (h' : entry'.Gathers category cs)
    (hshown : entry.Shown) (hshown' : entry'.Shown) : entry = entry' := by
  cases entry with
  | none =>
      rw [h.vacant rfl] at h'
      exact (h'.eq_none hshown').symm
  | some b =>
      cases entry' with
      | none =>
          rw [h'.vacant rfl] at h
          exact h.eq_none hshown
      | some b' =>
          obtain ⟨hcategory, hproper, hmem⟩ := h.bucket b rfl
          obtain ⟨hcategory', hproper', hmem'⟩ := h'.bucket b' rfl
          have hcontributions : b.contributions = b'.contributions :=
            eq_of_strict (fun _ _ => Nat.lt_asymm) hproper.ascending hproper'.ascending
              fun c => (hmem c).trans (hmem' c).symm
          obtain ⟨htitle, hrank⟩ := Category.mk.inj (hcategory.trans hcategory'.symm)
          obtain ⟨title, rank, contributions⟩ := b
          obtain ⟨title', rank', contributions'⟩ := b'
          cases htitle
          cases hrank
          cases hcontributions
          rfl

theorem Gathers.congr (h : entry.Gathers category cs) (hmem : ∀ c, c ∈ cs ↔ c ∈ cs') :
    entry.Gathers category cs' where
  bucket b hb := by
    obtain ⟨hcategory, hproper, hb⟩ := h.bucket b hb
    exact ⟨hcategory, hproper, fun c => (hb c).trans (hmem c)⟩
  vacant hnone := by
    refine List.eq_nil_iff_forall_not_mem.mpr ?_
    intro c hc
    have hold := (hmem c).mpr hc
    rw [h.vacant hnone] at hold
    exact absurd hold List.not_mem_nil

end Entry

/-! ### What a definition comes to -/

namespace Definition

variable {d : Definition} {s : Source} {standard : Nat} {q : Question} {o : Offering}

/-- What the service of a definition answers, if it has one that is asked. -/
def served? (s : Source) (standard : Nat) (q : Question) : Definition → Option Offering
  | .list l => ((Definition.list l).service? q.text).map fun service =>
      ⟨l.suggestions s (service.answer q), some (l.limit standard)⟩
  | .test _ => none

/-- What a definition has for a question once its service has answered. -/
def settled? (s : Source) (standard : Nat) (q : Question) (d : Definition) : Option Offering :=
  (d.offering? s standard q.text).or ((d.served? s standard q).filter fun o => !o.options.isEmpty)

/-- A definition that has something at once has no service to ask. -/
theorem served?_of_offering? (h : d.offering? s standard q.text = some o) :
    d.served? s standard q = none := by
  cases d with
  | test t => rfl
  | list l =>
      unfold offering? at h
      cases hl : l.supply with
      | items items => simp [served?, service?, hl]
      | service service => simp [hl] at h

/-- In the end a definition has what it had at once, or what its service found. -/
theorem settled?_eq_some_iff : d.settled? s standard q = some o ↔
    d.offering? s standard q.text = some o ∨ d.served? s standard q = some o ∧ o.options ≠ [] := by
  unfold settled?
  rw [Option.or_eq_some_iff, Option.filter_eq_some_iff]
  have hempty : (!o.options.isEmpty) = true ↔ o.options ≠ [] := by simp
  rw [hempty]
  refine or_congr_right ⟨And.right, fun h => ⟨?_, h⟩⟩
  cases hoffering : d.offering? s standard q.text with
  | none => rfl
  | some o' =>
      rw [served?_of_offering? hoffering] at h
      exact absurd h.1 (by simp)

theorem served?_of_service? {l : ListLookup} {service : Service}
    (h : (Definition.list l).service? q.text = some service) :
    (Definition.list l).served? s standard q
      = some ⟨l.suggestions s (service.answer q), some (l.limit standard)⟩ := by
  show ((Definition.list l).service? q.text).map _ = _
  rw [h]
  rfl

theorem of_served? (h : d.served? s standard q = some o) :
    ∃ l, d = .list l ∧ o.limit = some (l.limit standard) := by
  cases d with
  | test t => contradiction
  | list l =>
      obtain ⟨service, -, rfl⟩ := Option.map_eq_some_iff.mp h
      exact ⟨l, rfl, rfl⟩

end Definition

/-! ### What a search comes to -/

namespace Config

/-- Names and titles tell sources apart, no title is that of the function names, and no list has a
limit of nought. -/
structure Separates (c : Config) : Prop where
  names : (c.sources.map (·.name)).Nodup
  titles : (c.sources.map (·.title)).Nodup
  functions : Category.functionsTitle ∉ c.sources.map (·.title)
  limits : ∀ s ∈ c.sources, ∀ l, .list l ∈ s.definitions → l.limit c.itemLimit ≠ 0

variable {c : Config} {s t : Source} {i j index : Nat} {l : ListLookup}

/-- Sources of one title stand at one place. -/
theorem Separates.eq_of_title (h : c.Separates) (hs : c.sources[i]? = some s)
    (ht : c.sources[j]? = some t) (htitle : s.title = t.title) : i = j ∧ s = t := by
  have hst := List.inj_on_of_nodup_map h.titles (List.mem_of_getElem? hs)
    (List.mem_of_getElem? ht) htitle
  exact place_unique h.names hs ht (by rw [hst])

/-- A list is found under the name of its source. -/
theorem listAt?_of_place (hnames : (c.sources.map (·.name)).Nodup) (hs : c.sources[i]? = some s)
    (hl : s.definitions[index]? = some (.list l)) :
    c.listAt? s.name index = some (⟨.ofSource s i, index, l.limit c.itemLimit⟩, s, l) := by
  have hmem : s ∈ c.sources := List.mem_of_getElem? hs
  have hfound : ∃ p, c.sourceAt? s.name = some p := by
    unfold sourceAt? source?
    have hplace : (c.sources.findIdx? (·.name == s.name)).isSome = true := by
      rw [List.findIdx?_isSome]
      exact List.any_eq_true.mpr ⟨s, hmem, by simp⟩
    have hsource : (c.sources.find? (·.name == s.name)).isSome = true := by
      rw [List.find?_isSome]
      exact ⟨s, hmem, by simp⟩
    obtain ⟨position, hposition⟩ := Option.isSome_iff_exists.mp hplace
    obtain ⟨t, ht⟩ := Option.isSome_iff_exists.mp hsource
    rw [hposition, ht]
    exact ⟨(position, t), rfl⟩
  obtain ⟨⟨position, t⟩, hfound⟩ := hfound
  obtain ⟨ht, hname⟩ := of_sourceAt? hfound
  obtain ⟨rfl, rfl⟩ := place_unique hnames ht hs hname
  unfold listAt?
  rw [hfound]
  dsimp only
  rw [hl]

end Config

namespace SearchContext

variable {ctx : SearchContext} {search title : String} {operator : Option Operator}
  {g : Generation} {s : Source} {position : Nat}

/-- What is asked about a search text. -/
def question (ctx : SearchContext) (search : String) (operator : Option Operator) : Question :=
  ⟨search, operator, ctx.matchers⟩

/-- What the definitions of an eligible source contribute, given what each of them has. -/
def contributionsBy (ctx : SearchContext) (s : Source) (has : Definition → Option Offering) :
    List Contribution :=
  if s.eligible ctx.function then
    s.definitions.zipIdx.filterMap fun (d, index) =>
      (has d).map fun o => .after [] index o.options o.limit
  else []

/-- What they contribute at once. -/
def promptContributions (ctx : SearchContext) (search : String) (s : Source) : List Contribution :=
  ctx.contributionsBy s (·.offering? s ctx.config.itemLimit search)

/-- What they have contributed when all services have answered. -/
def settledContributions (ctx : SearchContext) (search : String) (operator : Option Operator)
    (s : Source) : List Contribution :=
  ctx.contributionsBy s (·.settled? s ctx.config.itemLimit (ctx.question search operator))

theorem mem_contributionsBy {has : Definition → Option Offering} {c : Contribution} :
    c ∈ ctx.contributionsBy s has ↔ s.eligible ctx.function = true ∧
      ∃ index d o, s.definitions[index]? = some d ∧ has d = some o ∧
        c = .after [] index o.options o.limit := by
  unfold contributionsBy
  by_cases heligible : s.eligible ctx.function = true
  · rw [if_pos heligible]
    simp only [List.mem_filterMap, List.mem_zipIdx_iff_getElem?, Option.map_eq_some_iff,
      Prod.exists, heligible, true_and]
    constructor
    · rintro ⟨d, index, hd, o, ho, rfl⟩
      exact ⟨index, d, o, hd, ho, rfl⟩
    · rintro ⟨index, d, o, hd, ho, rfl⟩
      exact ⟨d, index, hd, o, ho, rfl⟩
  · rw [if_neg heligible]
    simp [heligible]

/-- Where no limit is nought, all that is contributed at once has something to show. -/
theorem options_ne_nil_of_mem_prompt (h : ctx.config.Separates) (hs : s ∈ ctx.config.sources)
    {c : Contribution} (hc : c ∈ ctx.promptContributions search s) : c.options ≠ [] := by
  obtain ⟨-, index, d, o, hd, ho, rfl⟩ := mem_contributionsBy.mp hc
  obtain ⟨hoptions, hzero⟩ := Definition.of_offering? ho
  refine Contribution.options_after_ne_nil hoptions ?_
  intro hlimit
  obtain ⟨l, rfl, hl⟩ := hzero hlimit
  exact h.limits s hs l (List.mem_of_getElem? hd) hl

/-- An eligible source contributes nothing at once just when it has nothing to offer. -/
theorem promptContributions_eq_nil (heligible : s.eligible ctx.function = true) :
    ctx.promptContributions search s = [] ↔ s.offerings ctx.config.itemLimit search = [] := by
  have hempty : (ctx.contributionsOf search s s.definitions.zipIdx).isEmpty
      = (s.offerings ctx.config.itemLimit search).isEmpty := isEmpty_contributionsOf s.definitions 0
  unfold promptContributions contributionsBy
  rw [if_pos heligible, ← List.isEmpty_iff, ← List.isEmpty_iff]
  exact Bool.eq_iff_iff.mp hempty

/-! ### What is found at once -/

/-- The bucket of a source is under its title, if the source contributes. -/
theorem bucket?_find (h : ctx.config.Separates) (hlong : ¬ ctx.tooShort search)
    (hs : ctx.config.sources[position]? = some s) :
    (ctx.find search operator g).buckets.bucket? s.title
      = if ctx.contributes search s = true then some (ctx.bucketOf search s position)
        else none := by
  have htitles := (ordered_find ctx search operator g).titles
  rw [buckets_find_eq hlong h.titles h.functions] at htitles ⊢
  split
  · rename_i hcontributes
    refine Buckets.bucket?_title (b := ctx.bucketOf search s position) htitles ?_
    exact List.mem_append_right _
      (List.mem_map.mpr ⟨(s, position), mem_contributors.mpr ⟨hs, hcontributes⟩, rfl⟩)
  · rename_i hcontributes
    rw [Buckets.bucket?_eq_none]
    intro b hb htitle
    rcases List.mem_append.mp hb with hname | hsource
    · have hfunctions := congrArg Category.title (category_of_mem_functionBuckets hname)
      exact h.functions (List.mem_map.mpr
        ⟨s, List.mem_of_getElem? hs, htitle.symm.trans hfunctions⟩)
    · obtain ⟨p, hp, rfl⟩ := List.mem_map.mp hsource
      obtain ⟨hplace, hyes⟩ := mem_contributors.mp hp
      obtain ⟨-, heq⟩ := h.eq_of_title hplace hs htitle
      exact hcontributes (heq ▸ hyes)

/-- Under any other title there is at most the bucket of the function names. -/
theorem bucket?_find_of_ne (h : ctx.config.Separates) (hlong : ¬ ctx.tooShort search)
    (htitle : ∀ s ∈ ctx.config.sources, s.title ≠ title) :
    (ctx.find search operator g).buckets.bucket? title
      = (ctx.functionBuckets search).bucket? title := by
  rw [buckets_find_eq hlong h.titles h.functions]
  unfold expectedBuckets Buckets.bucket?
  rw [List.find?_append]
  refine (congrArg (Option.or _) (List.find?_eq_none.mpr ?_)).trans Option.or_none
  intro b hb
  obtain ⟨p, hp, rfl⟩ := List.mem_map.mp hb
  have hne := htitle p.1 (List.mem_of_getElem? (mem_contributors.mp hp).1)
  simpa [bucketOf, Bucket.empty, Category.ofSource] using hne

/-- At first a category gathers what its source contributes at once. -/
theorem gathers_find (h : ctx.config.Separates) (hlong : ¬ ctx.tooShort search)
    (hs : ctx.config.sources[position]? = some s) (operator : Option Operator) (g : Generation) :
    Entry.Gathers ((ctx.find search operator g).buckets.bucket? s.title) (.ofSource s position)
      (ctx.promptContributions search s) := by
  refine ⟨?_, ?_⟩
  · intro b hb
    have hproper := proper_find ctx search operator g s.title b hb
    rw [bucket?_find h hlong hs] at hb
    split at hb
    · rename_i hcontributes
      obtain rfl := Option.some.inj hb
      unfold contributes at hcontributes
      rw [Bool.and_eq_true] at hcontributes
      refine ⟨rfl, hproper, fun c => ?_⟩
      unfold promptContributions contributionsBy
      rw [if_pos hcontributes.1]
      rfl
    · contradiction
  · intro hnone
    rw [bucket?_find h hlong hs] at hnone
    split at hnone
    · contradiction
    · rename_i hcontributes
      by_cases heligible : s.eligible ctx.function = true
      · rw [promptContributions_eq_nil heligible]
        by_contra hsome
        exact hcontributes (by simp [contributes, heligible, hsome])
      · unfold promptContributions contributionsBy
        rw [if_neg heligible]

/-! ### What the services answer -/

/-- What a category is given are the answers of the services of its source. -/
theorem mem_given_pending (h : ctx.config.Separates) (hlong : ¬ ctx.tooShort search)
    (hs : ctx.config.sources[position]? = some s) {p : Stake × List Suggestion} :
    p ∈ ctx.config.given s.title ((ctx.find search operator g).pending.map (·.answered)) ↔
      s.eligible ctx.function = true ∧ ∃ index l o, s.definitions[index]? = some (.list l) ∧
        (Definition.list l).served? s ctx.config.itemLimit (ctx.question search operator)
          = some o ∧
        p = (⟨.ofSource s position, index, l.limit ctx.config.itemLimit⟩, o.options) := by
  unfold Config.given
  rw [List.filterMap_map, List.mem_filterMap, find_eq hlong]
  constructor
  · rintro ⟨r, hr, hp⟩
    obtain ⟨t, ht, hr⟩ := List.mem_flatMap.mp hr
    obtain ⟨place, hplace⟩ := List.mem_iff_getElem?.mp ht
    obtain ⟨heligible, d, index, hd, hfor⟩ := mem_requestsFor hr
    obtain ⟨service, hservice, rfl⟩ := Option.map_eq_some_iff.mp hfor
    cases d with
    | test t => contradiction
    | list l =>
        have hlist := Config.listAt?_of_place h.names hplace hd
        obtain ⟨hgiven, htitle⟩ := Option.filter_eq_some_iff.mp hp
        have hanswer : ctx.config.given? (ctx.request search operator g t index service).answered
            = some (⟨.ofSource t place, index, l.limit ctx.config.itemLimit⟩,
                l.suggestions t (service.answer (ctx.question search operator))) := by
          show (ctx.config.listAt? t.name index).map _ = _
          rw [hlist]
          rfl
        obtain rfl := Option.some.inj (hanswer.symm.trans hgiven)
        obtain ⟨rfl, rfl⟩ := h.eq_of_title hplace hs (beq_iff_eq.mp htitle)
        exact ⟨heligible, index, l, _, hd,
          Definition.served?_of_service? (q := ctx.question search operator) hservice, rfl⟩
  · rintro ⟨heligible, index, l, o, hl, ho, rfl⟩
    obtain ⟨service, hservice, rfl⟩ := Option.map_eq_some_iff.mp ho
    refine ⟨ctx.request search operator g s index service, ?_, ?_⟩
    · refine List.mem_flatMap.mpr ⟨s, List.mem_of_getElem? hs, ?_⟩
      unfold requestsFor
      rw [if_pos heligible]
      refine List.mem_filterMap.mpr ⟨(.list l, index), List.mem_zipIdx_iff_getElem?.mpr hl, ?_⟩
      show ((Definition.list l).service? search).map _ = _
      rw [show (Definition.list l).service? search = some service from hservice]
      rfl
    · show ((ctx.config.listAt? s.name index).map _).filter _ = _
      rw [Config.listAt?_of_place h.names hs hl, Option.map_some, Option.filter_some,
        if_pos (by simp [Category.ofSource])]
      rfl

/-- No two of them are for one definition. -/
theorem nodup_origins_given (h : ctx.config.Separates) (hlong : ¬ ctx.tooShort search)
    (hs : ctx.config.sources[position]? = some s) :
    ((ctx.config.given s.title ((ctx.find search operator g).pending.map (·.answered))).map
      (·.1.origin)).Nodup := by
  set given := ctx.config.given s.title ((ctx.find search operator g).pending.map (·.answered))
    with hgiven
  have hstakes : (given.map Prod.fst).Nodup := by
    rw [hgiven, LookupRequest.answered_eq_answeredBy, Config.map_fst_given]
    exact nodup_stakes h.names s.title
  have horigins : given.map (·.1.origin) = (given.map Prod.fst).map (·.origin) := by
    rw [List.map_map]
    rfl
  rw [horigins]
  refine hstakes.map_on ?_
  intro k hk k' hk' heq
  obtain ⟨p, hp, rfl⟩ := List.mem_map.mp hk
  obtain ⟨p', hp', rfl⟩ := List.mem_map.mp hk'
  obtain ⟨-, index, l, o, hl, -, rfl⟩ := (mem_given_pending h hlong hs).mp hp
  obtain ⟨-, index', l', o', hl', -, rfl⟩ := (mem_given_pending h hlong hs).mp hp'
  obtain rfl : index = index' := heq
  obtain rfl := Definition.list.inj (Option.some.inj (hl.symm.trans hl'))
  rfl

/-! ### What is shown in the end -/

theorem ordered_settled (ctx : SearchContext) (search : String) (operator : Option Operator)
    (g : Generation) :
    ((ctx.find search operator g).settled ctx.config).Ordered ctx.config :=
  (ordered_find ctx search operator g).withAnswers _

/-- Under a title of no source nothing is answered. -/
theorem bucket?_settled_of_ne (h : ctx.config.Separates) (hlong : ¬ ctx.tooShort search)
    (htitle : ∀ s ∈ ctx.config.sources, s.title ≠ title) :
    ((ctx.find search operator g).settled ctx.config).bucket? title
      = (ctx.functionBuckets search).bucket? title := by
  unfold Findings.settled
  rw [Buckets.bucket?_withAnswers (ordered_find ctx search operator g),
    bucket?_find_of_ne h hlong htitle]
  have hnone : ctx.config.given title ((ctx.find search operator g).pending.map (·.answered))
      = [] := by
    unfold Config.given
    rw [List.filterMap_eq_nil_iff]
    intro a _
    cases hgiven : ctx.config.given? a with
    | none => rfl
    | some p =>
        obtain ⟨⟨k, s, l⟩, hlist, rfl⟩ := Option.map_eq_some_iff.mp hgiven
        obtain ⟨position, hs, -, -, rfl⟩ := Config.of_listAt? hlist
        have hne := htitle s (List.mem_of_getElem? hs)
        simpa [Category.ofSource] using hne
  rw [hnone]
  rfl

/-- **In the end a category gathers what its source contributes, at once or through services.** -/
theorem gathers_settled (h : ctx.config.Separates) (hlong : ¬ ctx.tooShort search)
    (hs : ctx.config.sources[position]? = some s) (operator : Option Operator) (g : Generation) :
    Entry.Gathers (((ctx.find search operator g).settled ctx.config).bucket? s.title)
      (.ofSource s position) (ctx.settledContributions search operator s) := by
  have hmem : s ∈ ctx.config.sources := List.mem_of_getElem? hs
  unfold Findings.settled
  rw [Buckets.bucket?_withAnswers (ordered_find ctx search operator g)]
  have hseen : ∀ c ∈ ctx.promptContributions search s, c.options ≠ [] :=
    fun c hc => options_ne_nil_of_mem_prompt h hmem hc
  have hfound := gathers_find h hlong hs operator g
  refine Entry.Gathers.congr
    (hfound.afterAll hseen ?_ (nodup_origins_given h hlong hs) ?_ _) ?_
  · intro p hp
    obtain ⟨-, index, l, o, hl, -, rfl⟩ := (mem_given_pending h hlong hs).mp hp
    exact ⟨rfl, h.limits s hmem l (List.mem_of_getElem? hl)⟩
  · intro c hc p hp horigin
    obtain ⟨-, index, d, o, hd, ho, rfl⟩ := mem_contributionsBy.mp hc
    obtain ⟨-, index', l, o', hl, ho', rfl⟩ := (mem_given_pending h hlong hs).mp hp
    obtain rfl : index = index' := horigin
    obtain rfl := Option.some.inj (hd.symm.trans hl)
    have hnone : (Definition.list l).served? s ctx.config.itemLimit (ctx.question search operator)
        = none := Definition.served?_of_offering? ho
    rw [hnone] at ho'
    contradiction
  · intro c
    rw [List.mem_append, List.mem_filterMap]
    unfold promptContributions settledContributions
    rw [mem_contributionsBy, mem_contributionsBy]
    simp only [mem_given_pending h hlong hs, Definition.settled?_eq_some_iff]
    constructor
    · rintro (⟨heligible, index, d, o, hd, ho, rfl⟩
        | ⟨p, ⟨heligible, index, l, o, hl, ho, rfl⟩, hc⟩)
      · exact ⟨heligible, index, d, o, hd, Or.inl ho, rfl⟩
      · obtain ⟨_, heq, hlimit⟩ := Definition.of_served? ho
        obtain rfl := Definition.list.inj heq
        unfold Stake.contribution? at hc
        split at hc
        · contradiction
        · rename_i hoptions
          obtain rfl := Option.some.inj hc
          refine ⟨heligible, index, _, o, hl, Or.inr ⟨ho, by simpa using hoptions⟩, ?_⟩
          rw [hlimit]
    · rintro ⟨heligible, index, d, o, hd, ho | ⟨ho, hoptions⟩, rfl⟩
      · exact Or.inl ⟨heligible, index, d, o, hd, ho, rfl⟩
      · obtain ⟨l, rfl, hlimit⟩ := Definition.of_served? ho
        refine Or.inr ⟨_, ⟨heligible, index, l, o, hd, ho, rfl⟩, ?_⟩
        rw [hlimit]
        exact if_neg (by simpa using hoptions)

/-- **In the end no place is kept.** -/
theorem shown_settled (h : ctx.config.Separates) (hlong : ¬ ctx.tooShort search)
    (hs : ctx.config.sources[position]? = some s) (operator : Option Operator) (g : Generation) :
    Entry.Shown (((ctx.find search operator g).settled ctx.config).bucket? s.title) := by
  have hmem : s ∈ ctx.config.sources := List.mem_of_getElem? hs
  unfold Findings.settled
  rw [Buckets.bucket?_withAnswers (ordered_find ctx search operator g)]
  refine Entry.shown_afterAll ?_ ?_
  · by_cases hawaits : s.eligible ctx.function = true ∧ ctx.awaits search s = true
    · -- A service is asked, so that there is an answer which can release the place.
      obtain ⟨heligible, hawaits⟩ := hawaits
      unfold awaits at hawaits
      rw [Bool.and_eq_true, List.any_eq_true] at hawaits
      obtain ⟨hshow, d, hd, hservice⟩ := hawaits
      obtain ⟨index, hindex⟩ := List.mem_iff_getElem?.mp hd
      obtain ⟨service, hservice⟩ := Option.isSome_iff_exists.mp hservice
      cases d with
      | test t => contradiction
      | list l =>
          have hserved : (Definition.list l).served? s ctx.config.itemLimit
              (ctx.question search operator) = some _ := Definition.served?_of_service? hservice
          have hgiven := (mem_given_pending (g := g) h hlong hs).mpr
            ⟨heligible, index, l, _, hindex, hserved, rfl⟩
          exact Or.inl ⟨hshow, List.ne_nil_of_mem hgiven⟩
    · -- Otherwise a bucket is only there because something was found at once.
      refine Or.inr ?_
      intro b hb
      have hgathers := gathers_find h hlong hs operator g
      rw [hb] at hgathers
      rw [bucket?_find h hlong hs] at hb
      split at hb
      · rename_i hcontributes
        unfold contributes at hcontributes
        rw [Bool.and_eq_true, Bool.or_eq_true] at hcontributes
        obtain ⟨heligible, hsome | hyes⟩ := hcontributes
        · have hseen := fun c (hc : c ∈ ctx.promptContributions search s) =>
            options_ne_nil_of_mem_prompt h hmem hc
          rw [← Bool.not_eq_true, hgathers.isPlaceholder_iff hseen]
          intro hnil
          rw [promptContributions_eq_nil heligible] at hnil
          simp [hnil] at hsome
        · exact absurd ⟨heligible, hyes⟩ hawaits
      · contradiction
  · intro p hp
    obtain ⟨-, index, l, o, hl, -, rfl⟩ := (mem_given_pending h hlong hs).mp hp
    exact h.limits s hmem l (List.mem_of_getElem? hl)

end SearchContext

end QueryBar
