/-
Places that are waited for.

An entry keeps its place as long as one of its answers is awaited, whatever the others are, just
when there is something in it that the others cannot take away (`Entry.Waits`).  Two answers are
enough to see why: if the entry shows nothing, an empty answer removes it, and the other one is
still to come.  What is found at once protects the place, unless lists with a limit of nought
can take all of it away.

That an entry waits is enough by induction over the answers (`Entry.isSome_afterAll`), and no less
will do, as answers can be given with which it is gone (`Entry.exists_gone`).  For a search the
answers of an entry are those to the requests that go into its category
(`awaited_have_places_iff`).
-/
import QueryBar.Proofs.Search.Gathering
import QueryBar.Proofs.Search.Places

namespace QueryBar

/-! ### Requests, some of which are answered -/

/-- Some of what is picked out, in any order, comes from some of the whole. -/
theorem exists_subperm_filterMap {α β : Type} {f : α → Option β} {xs : List α} {y : β}
    {ys : List β} (h : (y :: ys).Subperm (xs.filterMap f)) :
    ∃ x xs', f x = some y ∧ xs'.filterMap f = ys ∧ (x :: xs').Subperm xs := by
  obtain ⟨zs, hperm, hsub⟩ := h
  obtain ⟨picked, hpicked, rfl⟩ := List.sublist_filterMap_iff.mp hsub
  obtain ⟨moved, hmoved, heq⟩ := exists_perm_filterMap hperm.symm
  obtain ⟨before, x, rest, rfl, -, hx, hrest⟩ := List.filterMap_eq_cons_iff.mp heq
  have htail : (x :: rest).Subperm (before ++ x :: rest) :=
    (List.sublist_append_right before (x :: rest)).subperm
  exact ⟨x, rest, hx, hrest, htail.trans (hmoved.subperm.trans hpicked.subperm)⟩

namespace Entry

variable {entry : Entry} {releases : Bool} {ks js : List Stake} {k awaited : Stake}
  {given : List (Stake × List Suggestion)} {name : Stake → String}

/-- While any one of the answers is awaited, the entry shows something when an empty one comes of
the others, whatever the rest of these are. -/
def Waits (entry : Entry) (ks : List Stake) : Prop :=
  ∀ awaited ∈ ks, ∀ k ∈ ks.erase awaited, entry.Outlasts (ks.erase awaited) k

/-! ### Entries that stay -/

/-- **An entry that outlasts the answers is there after them.** -/
theorem isSome_afterAll (hproper : entry.Proper) (hsome : entry.isSome = true)
    (hlasts : ∀ k ∈ given.map Prod.fst, entry.Outlasts ks k)
    (hdistinct : (given.map Prod.fst).Nodup) (hsub : given.map Prod.fst ⊆ ks) :
    (entry.afterAll releases given).isSome = true := by
  induction given generalizing entry with
  | nil => exact hsome
  | cons p rest ih =>
      obtain ⟨k, options⟩ := p
      rw [List.map_cons, List.nodup_cons] at hdistinct
      rw [List.map_cons, List.cons_subset] at hsub
      have hafter : (entry.after releases k options).isSome = true := by
        by_cases hoptions : options = []
        · obtain ⟨origin, hheld, -⟩ := hlasts k (by simp)
          rw [hoptions, after_of_empty, released_of_held hproper hheld, ite_self]
          exact hsome
        · rw [after_of_ne_nil releases k hoptions]
          rfl
      refine ih (hproper.after releases k options) hafter ?_ hdistinct.2 hsub.2
      intro k' hk'
      have hne : k ≠ k' := fun heq => hdistinct.1 (heq ▸ hk')
      exact (hlasts k' (List.mem_cons_of_mem _ hk')).after hproper hsub.1 hne releases options

/-- Nothing comes while the only answer is awaited. -/
theorem waits_of_alone (hdistinct : ks.Nodup) (hsame : ∀ k ∈ ks, ∀ k' ∈ ks, k = k') :
    entry.Waits ks := by
  intro awaited hawaited k hk
  obtain ⟨hne, hmem⟩ := hdistinct.mem_erase_iff.mp hk
  exact absurd (hsame k hmem awaited hawaited) hne

/-- What is held under an origin protects the place, if no list with a limit of nought has it. -/
theorem waits_of_held (origin : Nat) (hheld : entry.held origin ≠ [])
    (hlimits : ∀ k ∈ ks, k.limit = 0 → k.origin ≠ origin) : entry.Waits ks :=
  fun _ _ _ _ => ⟨origin, hheld, fun k' hk' _ => hlimits k' (List.mem_of_mem_erase hk')⟩

/-- **Where the entry does not wait, answers can be such that it is gone while one is awaited**: the
lists with a limit of nought find something, and then another one finds nothing. -/
theorem exists_gone (hproper : entry.Proper) (hdistinct : ks.Nodup) (hawaited : awaited ∈ ks)
    (hk : k ∈ ks.erase awaited) (hnot : ¬ entry.Outlasts (ks.erase awaited) k)
    (name : Stake → String) :
    ∃ (texts : Stake → List String) (js : List Stake), (awaited :: js).Subperm ks ∧
      entry.afterAll true (js.map (Stake.ofTexts name texts)) = none := by
  have hothers : (ks.erase awaited).Nodup := hdistinct.erase awaited
  let texts : Stake → List String := fun j => if j = k then [] else ["x"]
  let nought := ((ks.erase awaited).erase k).filter (·.limit == 0)
  have hblank : ∀ origin,
      (entry.afterAll true (nought.map (Stake.ofTexts name texts))).held origin = [] :=
    held_afterAll_nought hproper hothers hnot (by intro j hne _; simp [texts, hne]) true
  refine ⟨texts, nought ++ [k], ?_, ?_⟩
  · have hrest : (k :: nought).Subperm (ks.erase awaited) :=
      ((List.subperm_cons k).mpr List.filter_sublist.subperm).trans
        (List.perm_cons_erase hk).symm.subperm
    have hall : (awaited :: k :: nought).Subperm ks :=
      ((List.subperm_cons awaited).mpr hrest).trans (List.perm_cons_erase hawaited).symm.subperm
    exact ((List.perm_append_singleton k nought).cons awaited).subperm.trans hall
  · rw [List.map_append, afterAll_append, List.map_singleton,
      show Stake.ofTexts name texts k = (k, []) by simp [Stake.ofTexts, texts]]
    exact released_of_blank (hproper.afterAll true _) hblank

end Entry

namespace Config

variable {c : Config} {s : Source} {k : Stake} {title : String} {r : LookupRequest}
  {rs rs' : List LookupRequest}

theorem stakes_eq_filter (c : Config) (title : String) (rs : List LookupRequest) :
    c.stakes title rs = (rs.filterMap c.stake?).filter (·.category.title == title) := by
  unfold stakes
  rw [List.filter_filterMap]

theorem stakes_cons (hr : c.stake? r = some k) (htitle : k.category.title = title)
    (rs : List LookupRequest) : c.stakes title (r :: rs) = k :: c.stakes title rs := by
  unfold stakes
  exact List.filterMap_cons_some (by rw [hr, Option.filter_some, if_pos (beq_iff_eq.mpr htitle)])

theorem subperm_stakes (h : rs.Subperm rs') (title : String) :
    (c.stakes title rs).Subperm (c.stakes title rs') := by
  obtain ⟨picked, hperm, hsub⟩ := h
  exact ⟨c.stakes title picked, hperm.filterMap _, hsub.filterMap _⟩

end Config

namespace SearchContext

variable {ctx : SearchContext} {search : String} {operator : Option Operator} {g : Generation}
  {r : LookupRequest}

/-! ### Categories and requests -/

/-- A request of a search is answered into the category of its source. -/
theorem exists_stake (hnames : (ctx.config.sources.map (·.name)).Nodup)
    (hr : r ∈ (ctx.find search operator g).pending) :
    ∃ s ∈ ctx.config.sources, s.name = r.source ∧
      ∃ k, ctx.config.stake? r = some k ∧ k.category.title = s.title := by
  obtain ⟨position, s, l, hplace, -, hname, hlist, -⟩ := of_mem_pending hr
  refine ⟨s, List.mem_of_getElem? hplace, hname.symm,
    ⟨.ofSource s position, r.definition, l.limit ctx.config.itemLimit⟩, ?_, rfl⟩
  unfold Config.stake?
  rw [hname, Config.listAt?_of_place hnames hplace hlist]
  rfl

/-- **Whichever of the requests have been answered, and whatever was answered, the categories of the
others are there, just when all entries wait.** -/
theorem awaited_have_places_iff (hnames : (ctx.config.sources.map (·.name)).Nodup)
    (hshow : ctx.config.showWhenSearching = true) :
    let found := ctx.find search operator g
    (∀ (items : LookupRequest → List Item) (r : LookupRequest) (rs : List LookupRequest),
      (r :: rs).Subperm found.pending → ∃ s ∈ ctx.config.sources, s.name = r.source ∧
        (found.buckets.withAnswers ctx.config (rs.map (·.answeredBy items))).HasPlace s.title)
      ↔ ∀ title, Entry.Waits (found.buckets.bucket? title)
          (ctx.config.stakes title found.pending) := by
  intro found
  have hproper : found.buckets.Proper := proper_find ctx search operator g
  have hordered : found.buckets.Ordered ctx.config := ordered_find ctx search operator g
  have hdistinct : ∀ title, (ctx.config.stakes title found.pending).Nodup := nodup_stakes hnames
  constructor
  · intro hplaces title awaited hawaited k hk
    by_contra hnot
    -- Answers that would take the place away can be given, and one is still awaited.
    obtain ⟨texts, js, hjs, hgone⟩ := Entry.exists_gone (hproper title) (hdistinct title)
      hawaited hk hnot ctx.config.nameOf
    obtain ⟨r, rs, hr, hjs, hrs⟩ := exists_subperm_filterMap hjs
    have hjs : ctx.config.stakes title rs = js := hjs
    obtain ⟨s, hs, hname, hplace⟩ := hplaces (ctx.config.itemsOf texts) r rs hrs
    obtain ⟨hstake, htitle⟩ := Option.filter_eq_some_iff.mp hr
    obtain ⟨t, ht, htname, k', hk', hk'title⟩ := exists_stake hnames (hrs.subset List.mem_cons_self)
    obtain rfl := Option.some.inj (hstake.symm.trans hk')
    obtain rfl : s = t := List.inj_on_of_nodup_map hnames hs ht (hname.trans htname.symm)
    obtain rfl : s.title = title := hk'title.symm.trans (beq_iff_eq.mp htitle)
    unfold Buckets.HasPlace at hplace
    rw [Buckets.bucket?_withAnswers hordered, Config.given_itemsOf, hshow, hjs, hgone] at hplace
    contradiction
  · intro hwaits items r rs hrs
    have hmem : r ∈ found.pending := hrs.subset List.mem_cons_self
    obtain ⟨s, hs, hname, k, hk, htitle⟩ := exists_stake hnames hmem
    refine ⟨s, hs, hname, ?_⟩
    have hpending : (k :: ctx.config.stakes s.title rs).Subperm
        (ctx.config.stakes s.title found.pending) :=
      Config.stakes_cons hk htitle rs ▸ Config.subperm_stakes hrs s.title
    have hothers : (ctx.config.stakes s.title rs).Subperm
        ((ctx.config.stakes s.title found.pending).erase k) := by
      simpa using hpending.erase k
    obtain ⟨t, ht, htname, hplace⟩ := exists_place_find hshow hmem
    obtain rfl : s = t := List.inj_on_of_nodup_map hnames hs ht (hname.trans htname.symm)
    unfold Buckets.HasPlace
    rw [Buckets.bucket?_withAnswers hordered]
    have hlasts := fun j hj =>
      hwaits s.title k (hpending.subset List.mem_cons_self) j (hothers.subset hj)
    obtain ⟨picked, hperm, hpicked⟩ := hothers
    have hfirst := Config.map_fst_given ctx.config s.title items rs
    exact Entry.isSome_afterAll (hproper s.title) hplace (by rw [hfirst]; exact hlasts)
      (by rw [hfirst]; exact hperm.nodup_iff.mp (((hdistinct s.title).erase k).sublist hpicked))
      (by rw [hfirst]; exact fun j hj => hpicked.subset (hperm.symm.subset hj))

/-- **Where no two services answer into one category, all entries wait.** -/
theorem waits_find (hnames : (ctx.config.sources.map (·.name)).Nodup)
    (htitles : ((ctx.config.sources.filter fun s =>
      s.eligible ctx.function && s.serviceCount != 0).map (·.title)).Nodup)
    (hone : ∀ s ∈ ctx.config.sources, s.eligible ctx.function = true → s.serviceCount ≤ 1)
    (operator : Option Operator) (g : Generation) (title : String) :
    Entry.Waits ((ctx.find search operator g).buckets.bucket? title)
      (ctx.config.stakes title (ctx.find search operator g).pending) := by
  have hfew : ∀ s ∈ ctx.config.sources, s.eligible ctx.function = true →
      ¬ 2 ≤ s.serviceCount := by
    intro s hs heligible
    have hcount := hone s hs heligible
    omega
  have hapart : ctx.config.KeepsAnswersApart ctx.function := by
    refine ⟨htitles, ?_⟩
    rintro s - - ⟨-, t, ht, heligible, htwo, -⟩
    exact absurd htwo (hfew t ht heligible)
  refine Entry.waits_of_alone (nodup_stakes hnames title) ?_
  intro k hk k' hk'
  obtain ⟨position, s, l, l', hs, heligible, -, ⟨hl, hasks⟩, ⟨hl', hasks'⟩, hkl, hkl'⟩ :=
    of_mem_stakes_both hapart hnames hk hk'
  have hfew := hfew s (List.mem_of_getElem? hs) heligible
  have horigin : k.origin = k'.origin := by
    rcases Nat.lt_trichotomy k.origin k'.origin with hlt | heq | hgt
    · exact absurd (Source.two_le_serviceCount hl hl' hasks hasks' hlt) hfew
    · exact heq
    · exact absurd (Source.two_le_serviceCount hl' hl hasks' hasks hgt) hfew
  rw [horigin] at hl hkl
  obtain rfl := Definition.list.inj (Option.some.inj (hl.symm.trans hl'))
  exact hkl.trans hkl'.symm

end SearchContext

end QueryBar
