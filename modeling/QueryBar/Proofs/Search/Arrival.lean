/-
Answers in any order.

An answer changes the entry of one title, in the way that its stake says
(`bucket?_withAnswers`).  As titles and entries settle an ordered list of buckets, the order
in which answers come shows in the buckets just when it shows in some entry.  So it never
shows just when the answers to the requests of a search are apart in every category
(`withAnswers_indifferent_iff`).
-/
import QueryBar.Proofs.Config
import QueryBar.Proofs.Search.Answers
import QueryBar.Proofs.Search.Clashes
import QueryBar.Proofs.Search.Find

namespace QueryBar

/-- A rearrangement of what is picked out comes from one of the whole. -/
theorem exists_perm_filterMap {α β : Type} {f : α → Option β} {xs : List α} {ys : List β}
    (h : ys.Perm (xs.filterMap f)) : ∃ xs' : List α, xs'.Perm xs ∧ xs'.filterMap f = ys := by
  induction ys generalizing xs with
  | nil => exact ⟨xs, List.Perm.refl xs, h.symm.eq_nil⟩
  | cons y rest ih =>
      obtain ⟨x, hx, hfx⟩ := List.mem_filterMap.mp (h.subset List.mem_cons_self)
      obtain ⟨left, right, rfl⟩ := List.append_of_mem hx
      have hfront : (left ++ x :: right).Perm (x :: (left ++ right)) := List.perm_middle
      have hrest : rest.Perm ((left ++ right).filterMap f) := by
        have hpicked := h.trans (hfront.filterMap f)
        rw [List.filterMap_cons_some hfx] at hpicked
        exact hpicked.cons_inv
      obtain ⟨xs', hperm, hpicked⟩ := ih hrest
      refine ⟨x :: xs', (hperm.cons x).trans hfront.symm, ?_⟩
      rw [List.filterMap_cons_some hfx, hpicked]

namespace Config

/-- The list of a source that a request or an answer is about, and what is at stake for it. -/
def listAt? (c : Config) (source : String) (definition : Nat) :
    Option (Stake × Source × ListLookup) :=
  match c.sourceAt? source with
  | none => none
  | some (position, s) =>
    match s.definitions[definition]? with
    | some (.list l) => some (⟨.ofSource s position, definition, l.limit c.itemLimit⟩, s, l)
    | _ => none

/-- Where an answer to the request goes. -/
def stake? (c : Config) (r : LookupRequest) : Option Stake :=
  (c.listAt? r.source r.definition).map (·.1)

/-- What is at stake for the requests in the category with a title. -/
def stakes (c : Config) (title : String) (rs : List LookupRequest) : List Stake :=
  rs.filterMap fun r => (c.stake? r).filter (·.category.title == title)

/-- What an answer gives, and where it goes. -/
def given? (c : Config) (a : LookupAnswer) : Option (Stake × List Suggestion) :=
  (c.listAt? a.source a.definition).map fun (k, s, l) => (k, l.suggestions s a.items)

/-- What answers give to the category with a title. -/
def given (c : Config) (title : String) (answers : List LookupAnswer) :
    List (Stake × List Suggestion) :=
  answers.filterMap fun a => (c.given? a).filter (·.1.category.title == title)

variable {c : Config} {s : Source} {l : ListLookup} {k k' : Stake} {position definition : Nat}
  {source title : String} {r r' : LookupRequest}

/-- The list is one of a source that stands at the place of its category. -/
theorem of_listAt? (h : c.listAt? source definition = some (k, s, l)) :
    ∃ position, c.sources[position]? = some s ∧ s.name = source ∧
      s.definitions[definition]? = some (.list l) ∧
      k = ⟨.ofSource s position, definition, l.limit c.itemLimit⟩ := by
  unfold listAt? at h
  split at h
  · simp at h
  · rename_i position s' hsource
    split at h
    · rename_i l' hlist
      obtain ⟨rfl, rfl, rfl⟩ := by simpa using h
      obtain ⟨hplace, hname⟩ := of_sourceAt? hsource
      exact ⟨position, hplace, hname, hlist, rfl⟩
    · simp at h

theorem of_stake? (h : c.stake? r = some k) :
    ∃ position s l, c.sources[position]? = some s ∧ s.name = r.source ∧
      s.definitions[r.definition]? = some (.list l) ∧
      k = ⟨.ofSource s position, r.definition, l.limit c.itemLimit⟩ := by
  obtain ⟨⟨_, s, l⟩, hlist, rfl⟩ := Option.map_eq_some_iff.mp h
  obtain ⟨position, hplace, hname, hdefinition, hk⟩ := of_listAt? hlist
  exact ⟨position, s, l, hplace, hname, hdefinition, hk⟩

/-- The category and the definition settle what is at stake, and whose list it is. -/
theorem stake?_unique (h : c.stake? r = some k) (h' : c.stake? r' = some k')
    (hcategory : k.category = k'.category) (horigin : k.origin = k'.origin) :
    k = k' ∧ r.source = r'.source ∧ r.definition = r'.definition := by
  obtain ⟨position, s, l, hplace, hname, hlist, rfl⟩ := of_stake? h
  obtain ⟨position', s', l', hplace', hname', hlist', rfl⟩ := of_stake? h'
  have hposition : position = position' := congrArg (·.rank.position) hcategory
  have hdefinition : r.definition = r'.definition := horigin
  subst hposition
  obtain rfl := Option.some.inj (hplace.symm.trans hplace')
  rw [hdefinition] at hlist
  obtain rfl := Definition.list.inj (Option.some.inj (hlist.symm.trans hlist'))
  exact ⟨by rw [hdefinition], hname.symm.trans hname', hdefinition⟩

theorem mem_stakes {rs : List LookupRequest} :
    k ∈ c.stakes title rs ↔ ∃ r ∈ rs, c.stake? r = some k ∧ k.category.title = title := by
  simp [stakes, Option.filter_eq_some_iff]

/-- The answers to requests have the stakes of the requests. -/
theorem map_fst_given (c : Config) (title : String) (items : LookupRequest → List Item)
    (rs : List LookupRequest) :
    (c.given title (rs.map (·.answeredBy items))).map Prod.fst = c.stakes title rs := by
  unfold given stakes
  rw [List.filterMap_map, List.map_filterMap]
  refine List.filterMap_congr ?_
  intro r _
  show ((c.given? (r.answeredBy items)).filter _).map Prod.fst = _
  unfold given? stake?
  show (((c.listAt? r.source r.definition).map _).filter _).map Prod.fst = _
  cases c.listAt? r.source r.definition with
  | none => rfl
  | some p =>
      obtain ⟨k, s, l⟩ := p
      simp only [Option.map_some, Option.filter_some]
      split <;> rfl

/-- The name of the source whose category something goes into. -/
def nameOf (c : Config) (k : Stake) : String :=
  ((c.sources[k.category.rank.position]?).map (·.name)).getD ""

/-- Items that answer each request with the texts for its stake. -/
def itemsOf (c : Config) (texts : Stake → List String) (r : LookupRequest) : List Item :=
  (((c.stake? r).map texts).getD []).map .text

/-- Answers of texts give just these texts. -/
theorem given_itemsOf (c : Config) (title : String) (texts : Stake → List String)
    (rs : List LookupRequest) :
    c.given title (rs.map (·.answeredBy (c.itemsOf texts)))
      = (c.stakes title rs).map (Stake.ofTexts c.nameOf texts) := by
  unfold given stakes
  rw [List.filterMap_map, List.map_filterMap]
  refine List.filterMap_congr ?_
  intro r _
  show ((c.listAt? r.source r.definition).map fun (k, s, l) =>
    (k, l.suggestions s (c.itemsOf texts r))).filter _ = _
  unfold itemsOf stake?
  cases hlist : c.listAt? r.source r.definition with
  | none => rfl
  | some p =>
      obtain ⟨k, s, l⟩ := p
      obtain ⟨position, hplace, -, -, rfl⟩ := of_listAt? hlist
      have hname : c.nameOf ⟨.ofSource s position, r.definition, l.limit c.itemLimit⟩ = s.name := by
        simp [nameOf, Category.ofSource, hplace]
      have htext : ∀ u, l.valueOf (.text u) = .text u ∧ l.textOf (.text u) = u := by
        intro u
        unfold ListLookup.valueOf ListLookup.textOf
        cases l.valueGetter <;> cases l.textGetter <;> exact ⟨rfl, rfl⟩
      simp only [Option.map_some, Option.getD_some, Option.filter_some]
      split
      · simp [Stake.ofTexts, ListLookup.suggestions, hname, htext]
      · rfl

end Config

namespace Buckets

variable {c : Config} {bs bs' : Buckets} {a : LookupAnswer} {answers : List LookupAnswer}

/-! ### Answers and entries -/

def withAnswer (bs : Buckets) (c : Config) (a : LookupAnswer) : Buckets :=
  (bs.withAnswer? c a).getD bs

/-- An answer that finds something is merged, one that finds nothing may release its category. -/
theorem withAnswer_eq (bs : Buckets) (c : Config) (a : LookupAnswer) :
    bs.withAnswer c a
      = match c.given? a with
        | none => bs
        | some (k, options) =>
          if options.isEmpty then
            if c.showWhenSearching then bs.release k.category.title else bs
          else bs.merge k.category k.origin options (some k.limit) := by
  unfold withAnswer withAnswer? Config.given? Config.listAt?
  cases c.sourceAt? a.source with
  | none => rfl
  | some p =>
      obtain ⟨position, s⟩ := p
      dsimp only
      cases s.definitions[a.definition]? with
      | none => rfl
      | some d =>
          cases d with
          | test t => rfl
          | list l =>
              have hempty : (l.suggestions s a.items).isEmpty = a.items.isEmpty := by
                simp [ListLookup.suggestions]
              simp only [Option.map_some, hempty]
              cases a.items.isEmpty with
              | false => rfl
              | true =>
                  cases c.showWhenSearching with
                  | false => rfl
                  | true =>
                      simp only [Bool.not_true, Bool.false_eq_true, if_false, if_true]
                      split
                      · rename_i hlength
                        exact (List.filter_sublist.eq_of_length hlength).symm
                      · rfl

theorem Ordered.withAnswer (h : Ordered c bs) (a : LookupAnswer) :
    Ordered c (bs.withAnswer c a) := by
  rw [withAnswer_eq]
  split
  · exact h
  · rename_i k options hgiven
    split
    · split
      · exact h.release _
      · exact h
    · obtain ⟨⟨_, s, l⟩, hlist, heq⟩ := Option.map_eq_some_iff.mp hgiven
      obtain ⟨position, hplace, -, -, rfl⟩ := Config.of_listAt? hlist
      obtain ⟨rfl, -⟩ := Prod.mk.inj heq
      exact h.merge ⟨position, s, hplace, rfl⟩ ..

/-- An answer changes the entry of the category that it goes into. -/
theorem bucket?_withAnswer (htitles : (bs.map (·.title)).Nodup) (a : LookupAnswer)
    (title : String) :
    (bs.withAnswer c a).bucket? title
      = Entry.afterAll (bs.bucket? title) c.showWhenSearching (c.given title [a]) := by
  rw [withAnswer_eq]
  unfold Config.given
  rw [List.filterMap_cons, List.filterMap_nil]
  cases c.given? a with
  | none => rfl
  | some p =>
      obtain ⟨k, options⟩ := p
      rw [Option.filter_some]
      by_cases htitle : k.category.title = title
      · subst htitle
        simp only [beq_self_eq_true, if_true]
        show _ = Entry.after _ _ k options
        unfold Entry.after
        split
        · split
          · rw [bucket?_release htitles, if_pos rfl]
            rfl
          · rfl
        · rw [bucket?_merge, if_pos rfl]
          rfl
      · have hne : (k.category.title == title) = false := by simpa using htitle
        simp only [hne, Bool.false_eq_true, if_false]
        show _ = bs.bucket? title
        split
        · split
          · rw [bucket?_release htitles, if_neg htitle]
          · rfl
        · rw [bucket?_merge, if_neg htitle]

/-- **Answers change the entry of a title by what they give to it, one after the other.** -/
theorem bucket?_withAnswers (h : Ordered c bs) (answers : List LookupAnswer) (title : String) :
    (bs.withAnswers c answers).bucket? title
      = Entry.afterAll (bs.bucket? title) c.showWhenSearching (c.given title answers) := by
  induction answers generalizing bs with
  | nil => rfl
  | cons a rest ih =>
      show ((bs.withAnswer c a).withAnswers c rest).bucket? title = _
      rw [ih (h.withAnswer a), bucket?_withAnswer h.titles, ← Entry.afterAll_append]
      congr 1
      unfold Config.given
      rw [← List.filterMap_append]
      rfl

theorem Ordered.withAnswers (h : Ordered c bs) (answers : List LookupAnswer) :
    Ordered c (bs.withAnswers c answers) := by
  induction answers generalizing bs with
  | nil => exact h
  | cons a rest ih => exact ih (h.withAnswer a)

/-- All buckets are proper ones. -/
def Proper (bs : Buckets) : Prop := ∀ title, Entry.Proper (bs.bucket? title)

theorem Proper.merge (h : bs.Proper) (category : Category) (origin : Nat)
    (options : List Suggestion) (limit : Option Nat) :
    (bs.merge category origin options limit).Proper := by
  intro title b hb
  rw [bucket?_merge] at hb
  split at hb
  · obtain rfl := Option.some.inj hb
    exact ((h title).opened category).contribute ..
  · exact h title b hb

theorem Proper.reserve (h : bs.Proper) (category : Category) : (bs.reserve category).Proper := by
  intro title b hb
  rw [bucket?_reserve] at hb
  split at hb
  · obtain rfl := Option.some.inj hb
    exact (h title).opened category
  · exact h title b hb

/-! ### The order of answers -/

/-- **The order in which requests are answered never shows, whatever the answers are, just when
they are apart in every category.** -/
theorem withAnswers_indifferent_iff (h : Ordered c bs) (hproper : bs.Proper)
    {pending : List LookupRequest} (hdistinct : ∀ title, (c.stakes title pending).Nodup) :
    (∀ (items : LookupRequest → List Item) (rs rs' : List LookupRequest), rs.Perm pending →
      rs'.Perm pending → bs.withAnswers c (rs.map (·.answeredBy items))
        = bs.withAnswers c (rs'.map (·.answeredBy items)))
      ↔ ∀ title, Entry.Apart (bs.bucket? title) c.showWhenSearching (c.stakes title pending) := by
  constructor
  · intro hsame title
    have hindifferent : Entry.Indifferent (bs.bucket? title) c.showWhenSearching
        (c.stakes title pending) c.nameOf := by
      intro texts ks₁ ks₂ hperm₁ hperm₂
      obtain ⟨rs, hrs, rfl⟩ := exists_perm_filterMap hperm₁
      obtain ⟨rs', hrs', rfl⟩ := exists_perm_filterMap hperm₂
      have heq := congrArg (bucket? · title) (hsame (c.itemsOf texts) rs rs' hrs hrs')
      rw [bucket?_withAnswers h, bucket?_withAnswers h, Config.given_itemsOf,
        Config.given_itemsOf] at heq
      exact heq
    refine (Entry.apart_iff_indifferent (hproper title) (hdistinct title) ?_).mpr hindifferent
    intro k hk k' hk' hcategory horigin
    obtain ⟨r, -, hr, -⟩ := Config.mem_stakes.mp hk
    obtain ⟨r', -, hr', -⟩ := Config.mem_stakes.mp hk'
    exact (Config.stake?_unique hr hr' hcategory horigin).1
  · intro hapart items rs rs' hrs hrs'
    refine (h.withAnswers _).eq_of_bucket? (h.withAnswers _) ?_
    intro title
    have hstakes : (c.stakes title rs).Perm (c.stakes title pending) := hrs.filterMap _
    rw [bucket?_withAnswers h, bucket?_withAnswers h]
    refine Entry.afterAll_perm (((hrs.trans hrs'.symm).map _).filterMap _) (hproper title) ?_ ?_
    · show ((c.given title _).map Prod.fst).Nodup
      rw [Config.map_fst_given]
      exact hstakes.nodup_iff.mpr (hdistinct title)
    · show Entry.Apart _ _ ((c.given title _).map Prod.fst)
      rw [Config.map_fst_given]
      exact (hapart title).of_subset hstakes.subset

end Buckets

/-! ### The requests of a search -/

namespace SearchContext

variable {ctx : SearchContext} {search : String} {operator : Option Operator} {g : Generation}
  {s : Source} {r : LookupRequest}

theorem proper_find (ctx : SearchContext) (search : String) (operator : Option Operator)
    (g : Generation) : (ctx.find search operator g).buckets.Proper := by
  have hnil : Buckets.Proper [] := by
    intro title b hb
    simp [Buckets.bucket?] at hb
  refine buckets_find hnil ?_ ?_ ?_ operator g
  · show Buckets.Proper (if (ctx.functionNames search).isEmpty then []
      else Buckets.merge [] .functions 0 (ctx.functionNames search) none)
    split
    · exact hnil
    · exact hnil.merge _ _ _ _
  · intro bs hbs position s _ _ d _ o _ index
    exact hbs.merge _ _ _ _
  · intro bs hbs position s _ _ d _ _
    exact hbs.reserve _

theorem of_requestFor {d : Definition} {index : Nat}
    (h : ctx.requestFor search operator g s d index = some r) :
    r.source = s.name ∧ r.definition = index ∧ ∃ l, d = .list l ∧ l.asksService = true := by
  obtain ⟨service, hservice, rfl⟩ := Option.map_eq_some_iff.mp h
  have hasks := Definition.asksService_of_service? (Option.isSome_iff_exists.mpr ⟨service, hservice⟩)
  refine ⟨rfl, rfl, ?_⟩
  cases d with
  | list l => exact ⟨l, rfl, hasks⟩
  | test t => simp [Definition.service?] at hservice

theorem mem_requestsFor (h : r ∈ ctx.requestsFor search operator g s) :
    s.eligible ctx.function = true ∧ ∃ d index, s.definitions[index]? = some d ∧
      ctx.requestFor search operator g s d index = some r := by
  unfold requestsFor at h
  split at h
  · rename_i heligible
    obtain ⟨⟨d, index⟩, hd, hr⟩ := List.mem_filterMap.mp h
    exact ⟨heligible, d, index, List.mem_zipIdx_iff_getElem?.mp hd, hr⟩
  · simp at h

/-- Every request of a search is about a list of an eligible source that asks a service. -/
theorem of_mem_pending (h : r ∈ (ctx.find search operator g).pending) :
    ∃ (position : Nat) (s : Source) (l : ListLookup),
      ctx.config.sources[position]? = some s ∧ s.eligible ctx.function = true ∧
      r.source = s.name ∧ s.definitions[r.definition]? = some (.list l) ∧
      l.asksService = true := by
  by_cases hshort : ctx.tooShort search
  · rw [find_of_tooShort hshort] at h
    simp at h
  · rw [find_eq hshort] at h
    obtain ⟨s, hs, hr⟩ := List.mem_flatMap.mp h
    obtain ⟨position, hplace⟩ := List.mem_iff_getElem?.mp hs
    obtain ⟨heligible, d, index, hd, hfor⟩ := mem_requestsFor hr
    obtain ⟨hname, rfl, l, rfl, hasks⟩ := of_requestFor hfor
    exact ⟨position, s, l, hplace, heligible, hname, hd, hasks⟩

/-- No two requests of a search are about the same list. -/
theorem pairwise_pending (hnames : (ctx.config.sources.map (·.name)).Nodup) :
    (ctx.find search operator g).pending.Pairwise fun r r' =>
      r.source ≠ r'.source ∨ r.definition ≠ r'.definition := by
  by_cases hshort : ctx.tooShort search
  · rw [find_of_tooShort hshort]
    exact List.Pairwise.nil
  · rw [find_eq hshort]
    refine List.pairwise_flatMap.mpr ⟨?_, ?_⟩
    · intro s _
      unfold requestsFor
      split
      · have hplaces : (s.definitions.zipIdx.map Prod.snd).Nodup := by
          rw [List.zipIdx_map_snd]
          exact List.nodup_range'
        refine List.pairwise_filterMap.mpr ((List.pairwise_map.mp hplaces).imp ?_)
        intro p p' hne r hr r' hr'
        rw [(of_requestFor hr).2.1, (of_requestFor hr').2.1]
        exact Or.inr hne
      · exact List.Pairwise.nil
    · refine (List.pairwise_map.mp hnames).imp ?_
      intro s s' hne r hr r' hr'
      obtain ⟨-, d, index, -, hfor⟩ := mem_requestsFor hr
      obtain ⟨-, d', index', -, hfor'⟩ := mem_requestsFor hr'
      rw [(of_requestFor hfor).1, (of_requestFor hfor').1]
      exact Or.inl hne

/-- Different requests of a search have different stakes. -/
theorem nodup_stakes (hnames : (ctx.config.sources.map (·.name)).Nodup) (title : String) :
    (ctx.config.stakes title (ctx.find search operator g).pending).Nodup := by
  refine List.pairwise_filterMap.mpr ((pairwise_pending hnames).imp ?_)
  intro r r' hne k hk k' hk' heq
  obtain ⟨hk, -⟩ := Option.filter_eq_some_iff.mp hk
  obtain ⟨hk', -⟩ := Option.filter_eq_some_iff.mp hk'
  obtain ⟨-, hsource, hdefinition⟩ := Config.stake?_unique hk hk' (by rw [heq]) (by rw [heq])
  exact hne.elim (· hsource) (· hdefinition)

/-- **The order in which the services answer never shows in what a search comes to, just when
their answers are apart.** -/
theorem find_indifferent_iff (hnames : (ctx.config.sources.map (·.name)).Nodup) :
    let found := ctx.find search operator g
    (∀ (items : LookupRequest → List Item) (rs rs' : List LookupRequest),
      rs.Perm found.pending → rs'.Perm found.pending →
        found.buckets.withAnswers ctx.config (rs.map (·.answeredBy items))
          = found.buckets.withAnswers ctx.config (rs'.map (·.answeredBy items)))
      ↔ ∀ title, Entry.Apart (found.buckets.bucket? title) ctx.config.showWhenSearching
          (ctx.config.stakes title found.pending) :=
  Buckets.withAnswers_indifferent_iff (ordered_find ctx search operator g)
    (proper_find ctx search operator g) fun title => nodup_stakes hnames title

end SearchContext

end QueryBar
