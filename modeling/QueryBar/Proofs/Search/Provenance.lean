/-
What suggestions are made of.

A suggestion of a source is made in one of three ways (`Source.Makes`): of an item of a list that
is known beforehand and that accepted the text, of an item that a service answered, or of a text
that passed a test.  Joining, capping, merging and late answers only ever pass suggestions on, so
that what is true of all that is put into the buckets is true of all that they show
(`SearchContext.makes_of_shown`).

That an answer is read as one of the list that was asked for needs source names that tell sources
apart.
-/
import QueryBar.Proofs.Search.Origins

namespace QueryBar

/-- How a source can have made a value and its text, of texts that were searched for and of items
that its lists were answered with. -/
inductive Source.Makes (s : Source) (searched : String → Prop) (answered : Nat → Item → Prop) :
    Value → String → Prop
  /-- The item of a list that is known beforehand, which accepted the text. -/
  | item {l : ListLookup} {items : List Item} {item : Item} {search : String}
      (hlist : .list l ∈ s.definitions) (hsupply : l.supply = .items items) (hitem : item ∈ items)
      (hsearched : searched search) (haccepts : l.accepts search item = true) :
      s.Makes searched answered (l.valueOf item) (l.textOf item)
  /-- An item that the service of a list answered. -/
  | answer {l : ListLookup} {index : Nat} {item : Item}
      (hlist : s.definitions[index]? = some (.list l)) (hservice : l.asksService = true)
      (hanswered : answered index item) :
      s.Makes searched answered (l.valueOf item) (l.textOf item)
  /-- The value of a text that passed a test, as it is displayed. -/
  | derived {t : TestLookup} {search : String} (htest : .test t ∈ s.definitions)
      (hsearched : searched search) (haccepts : t.accepts search = true) :
      s.Makes searched answered (t.derived search) (t.derived search).display

/-- A source of the configuration has made the suggestion. -/
def Config.Makes (c : Config) (searched : String → Prop)
    (answered : String → Nat → Item → Prop) (o : Suggestion) : Prop :=
  ∃ s ∈ c.sources, o.source = s.name ∧ s.Makes searched (answered s.name) o.value o.text

variable {c : Config} {s : Source} {o : Suggestion} {searched searched' : String → Prop}
  {value : Value} {text : String}

/-- The more was searched for and answered, the more can have been made of it. -/
theorem Source.Makes.mono {answered answered' : Nat → Item → Prop}
    (h : s.Makes searched answered value text) (hsearched : ∀ t, searched t → searched' t)
    (hanswered : ∀ index item, answered index item → answered' index item) :
    s.Makes searched' answered' value text := by
  cases h with
  | item hlist hsupply hitem hfor haccepts =>
      exact .item hlist hsupply hitem (hsearched _ hfor) haccepts
  | answer hlist hservice hfrom => exact .answer hlist hservice (hanswered _ _ hfrom)
  | derived htest hfor haccepts => exact .derived htest (hsearched _ hfor) haccepts

theorem Config.Makes.mono {answered answered' : String → Nat → Item → Prop}
    (h : c.Makes searched answered o) (hsearched : ∀ t, searched t → searched' t)
    (hanswered : ∀ source index item, answered source index item → answered' source index item) :
    c.Makes searched' answered' o := by
  obtain ⟨s, hs, hname, hmakes⟩ := h
  exact ⟨s, hs, hname, hmakes.mono hsearched (hanswered s.name)⟩

/-- **What a definition has at once is made of the text.** -/
theorem Definition.makes_of_offering? {d : Definition} {standard : Nat} {search : String}
    {offering : Offering} {answered : Nat → Item → Prop} (hd : d ∈ s.definitions)
    (h : d.offering? s standard search = some offering) (ho : o ∈ offering.options) :
    s.Makes (· = search) answered o.value o.text := by
  cases d with
  | list l =>
      unfold offering? at h
      dsimp only at h
      split at h
      · rename_i items hsupply
        split at h
        · contradiction
        · obtain rfl := Option.some.inj h
          obtain ⟨item, hitem, rfl⟩ := List.mem_map.mp ho
          obtain ⟨hmem, haccepts⟩ := List.mem_filter.mp hitem
          exact .item hd hsupply hmem rfl haccepts
      · contradiction
  | test t =>
      unfold offering? at h
      dsimp only at h
      split at h
      · rename_i haccepts
        obtain rfl := Option.some.inj h
        rw [List.mem_singleton.mp ho]
        exact .derived hd rfl haccepts
      · contradiction

namespace SearchContext

variable {ctx : SearchContext} {search : String} {operator : Option Operator} {g : Generation}

/-- The name of a function that was asked for, or made by a source. -/
def Explains (ctx : SearchContext) (search : String) (answers : List LookupAnswer)
    (o : Suggestion) : Prop :=
  o.isFunction = true ∨
    ctx.config.Makes (· = search)
      (fun source index item =>
        ∃ a ∈ answers, a.source = source ∧ a.definition = index ∧ item ∈ a.items) o

/-- An answer to a request is read as one of the list that was asked for. -/
theorem makes_of_answer {answers : List LookupAnswer} {a : LookupAnswer} {r : LookupRequest}
    {l : ListLookup} (hnames : (ctx.config.sources.map (·.name)).Nodup)
    (hr : r ∈ (ctx.find search operator g).pending) (hsource : a.source = r.source)
    (hdefinition : a.definition = r.definition) (ha : a ∈ answers) (hs : s ∈ ctx.config.sources)
    (hname : s.name = a.source) (hlist : s.definitions[a.definition]? = some (.list l))
    (ho : o ∈ l.suggestions s a.items) : ctx.Explains search answers o := by
  obtain ⟨position, asked, l', hplace, -, hasked, hlist', hasks⟩ := of_mem_pending hr
  obtain ⟨i, hi⟩ := List.mem_iff_getElem?.mp hs
  obtain ⟨-, rfl⟩ := Config.place_unique hnames hi hplace (hname.trans (hsource.trans hasked))
  rw [← hdefinition, hlist] at hlist'
  obtain rfl := Definition.list.inj (Option.some.inj hlist')
  obtain ⟨item, hitem, rfl⟩ := List.mem_map.mp ho
  exact Or.inr ⟨s, hs, rfl, .answer hlist hasks ⟨a, ha, hname.symm, rfl, hitem⟩⟩

/-- **All that a search comes to is made of the text or of answers to its requests**, or is the name
of a function. -/
theorem explains_of_shown {answers : List LookupAnswer}
    (hnames : (ctx.config.sources.map (·.name)).Nodup)
    (hanswers : ∀ a ∈ answers, ∃ r ∈ (ctx.find search operator g).pending,
      a.source = r.source ∧ a.definition = r.definition)
    (ho : ((ctx.find search operator g).buckets.withAnswers ctx.config answers).Shows o) :
    ctx.Explains search answers o := by
  have hheld : ∀ b ∈ (ctx.find search operator g).buckets.withAnswers ctx.config answers,
      b.Holds (ctx.Explains search answers) := by
    refine Buckets.forall_withAnswers_of_list answers ?_ (Bucket.holds_empty _) ?_
    · refine forall_find_of_offering (Bucket.holds_empty _) ?_ ?_
      · intro _ b hb limit
        exact hb.contribute fun o ho => Or.inl (isFunction_of_mem_functionNames ho)
      · intro s hs _ d hd offering hoffering b origin limit hb
        exact hb.contribute fun o ho => Or.inr ⟨s, hs, d.source_of_offering? hoffering ho,
          d.makes_of_offering? hd hoffering ho⟩
    · intro a ha s hs hname l hlist b limit hb
      obtain ⟨r, hr, hsource, hdefinition⟩ := hanswers a ha
      exact hb.contribute fun o ho =>
        makes_of_answer hnames hr hsource hdefinition ha hs hname hlist ho
  obtain ⟨b, hb, hshown⟩ := ho
  exact (hheld b hb).shown hshown

end SearchContext

end QueryBar
