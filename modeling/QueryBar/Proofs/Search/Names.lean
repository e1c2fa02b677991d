/-
Function names at the head of the list.

A search delivers the function names that contain the text before anything else, to a category
that nothing precedes and without a limit.  Sources may have any title, though, and what is found
by one that is titled like the function names goes into their category, where its limits count as
well.  So the names come first and alone just when they are spared by all that is done about that
title (`names_head_the_list_iff`).  Without a source of that title they always are
(`spares_of_no_namesake`), whatever precedences and limits there are and in whatever order the
services answer.

That names which were cut can only come back from a source that makes function names of its own is
the reason why one direction needs that there is none.
-/
import Mathlib.Data.List.Perm.Subperm
import QueryBar.Proofs.Search.Origins
import QueryBar.Proofs.Search.Settling
import QueryBar.Proofs.Search.Spared

namespace QueryBar

open Buckets (Handling)

/-! ### Lists of names -/

section

variable {search : String} {functions : List QueryFunction} {o : Suggestion}

theorem agrees_ofFunction {name name' : String} :
    (Suggestion.ofFunction name).agrees (.ofFunction name') = true ↔ name = name' := by
  simp [Suggestion.agrees, Suggestion.ofFunction, Value.agrees]

/-- Functions of different names make suggestions of different values. -/
theorem pairwise_functionSuggestions (hdistinct : (functions.map (·.name)).Nodup) :
    (functionSuggestions search functions).Pairwise fun s t => ¬ s.agrees t = true := by
  unfold functionSuggestions
  rw [List.pairwise_map]
  refine List.Pairwise.sublist List.filter_sublist ?_
  refine (List.pairwise_map.mp hdistinct).imp ?_
  exact fun hne hagrees => hne (agrees_ofFunction.mp hagrees)

theorem of_mem_functionSuggestions (h : o ∈ functionSuggestions search functions) :
    o.isFunction = true ∧ o.agrees o = true := by
  obtain ⟨f, -, rfl⟩ := List.mem_map.mp h
  exact ⟨beq_self_eq_true functionSource, agrees_ofFunction.mpr rfl⟩

end

/-! ### The head of a list of buckets -/

namespace Buckets

variable {bs : Buckets} {c : Config} {b : Bucket} {calls : List Handling} {P : Category → Prop}

/-- Nothing stands before the category of the function names. -/
theorem Ordered.head?_of_functions (h : Ordered c bs) (hb : b ∈ bs)
    (hcategory : b.category = .functions) : bs.head? = some b := by
  cases bs with
  | nil => contradiction
  | cons head rest =>
      rcases List.mem_cons.mp hb with rfl | hrest
      · rfl
      · rcases (List.pairwise_cons.mp h.ranked).1 b hrest with houtranks | hfunctions
        · rw [hcategory] at houtranks
          exact absurd houtranks (Rank.not_outranks_functions _)
        · -- The two would have one title.
          have htitle : head.title = b.title :=
            congrArg Category.title (hfunctions.trans hcategory.symm)
          have hfresh := (List.nodup_cons.mp h.titles).1
          exact absurd (List.mem_map.mpr ⟨b, hrest, htitle.symm⟩) hfresh

/-- What stands first with a title is what stands under that title. -/
theorem head?_eq_some_iff (htitles : (bs.map (·.title)).Nodup) {title : String}
    {options : List Suggestion} :
    bs.head?.map (fun b => (b.title, b.options)) = some (title, options) ↔
      ∃ b, bs.bucket? title = some b ∧ bs.head? = some b ∧ b.options = options := by
  constructor
  · intro h
    obtain ⟨b, hhead, heq⟩ := Option.map_eq_some_iff.mp h
    obtain ⟨rfl, rfl⟩ := Prod.mk.inj heq
    exact ⟨b, bucket?_title htitles (List.mem_of_head? hhead), hhead, rfl⟩
  · rintro ⟨b, hb, hhead, rfl⟩
    have htitle : b.title = title := by simpa using List.find?_some hb
    rw [hhead, Option.map_some, htitle]

/-- A category stands in a list of buckets only if something has been filed into it. -/
theorem forall_category_handled (h : ∀ x, .file x ∈ calls → P x.category) :
    ∀ b ∈ handled calls, P b.category := by
  induction calls using List.reverseRecOn with
  | nil => simp [handled]
  | append_singleton before x ih =>
      have hbefore := ih fun y hy => h y (List.mem_append_left _ hy)
      rw [handled_append]
      rcases x with (d | category) | title
      · have hnew : P d.category := h (.deliver d) (by simp)
        exact forall_merge hbefore hnew fun b hb => hb
      · have hnew : P category := h (.reserve category) (by simp)
        exact forall_reserve hbefore hnew
      · exact forall_release hbefore title

end Buckets

namespace SearchContext

variable {ctx : SearchContext} {search : String} {operator : Option Operator} {g : Generation}
  {answers : List LookupAnswer} {x : Handling}

/-! ### What is done about the names -/

/-- What is done after the function names have been delivered, until the answers are in. -/
def handleLater (ctx : SearchContext) (search : String) (answers : List LookupAnswer) :
    List Handling :=
  ctx.handlingsBy (ctx.handleAtOnce search) ++ answers.filterMap ctx.config.handling?

/-- All that is done about the category of the function names. -/
def aboutNames (ctx : SearchContext) (search : String) (answers : List LookupAnswer) :
    List Handling :=
  (ctx.handleNames search ++ ctx.handleLater search answers).filter
    (·.title == Category.functionsTitle)

/-- A source of the configuration is behind the handling, and delivers something if anything. -/
structure IsOf (x : Handling) (s : Source) (position : Nat) : Prop where
  title : x.title = s.title
  category : ∀ y, x = .file y → y.category = .ofSource s position
  options : ∀ d, x = .file (.deliver d) → d.options ≠ [] ∧ ∀ o ∈ d.options, o.source = s.name

theorem isOf_deliver {s : Source} {position origin : Nat} {options : List Suggestion}
    {limit : Option Nat} (hsome : options ≠ []) (hsource : ∀ o ∈ options, o.source = s.name) :
    IsOf (.file (.deliver ⟨.ofSource s position, origin, options, limit⟩)) s position where
  title := rfl
  category := by
    intro y hy
    rw [← Handling.file.inj hy]
    rfl
  options := by
    intro d hd
    rw [← Filing.deliver.inj (Handling.file.inj hd)]
    exact ⟨hsome, hsource⟩

/-- Everything that is done after the names have been delivered is done for some source. -/
theorem isOf_of_mem_handleLater (hx : x ∈ ctx.handleLater search answers) :
    ∃ s position, ctx.config.sources[position]? = some s ∧ IsOf x s position := by
  rcases List.mem_append.mp hx with honce | hanswer
  · obtain ⟨s, position, d, index, hs, -, -, hdoes⟩ := mem_handlingsBy.mp honce
    refine ⟨s, position, hs, ?_⟩
    rcases of_handleAtOnce hdoes with ⟨o, ho, rfl⟩ | ⟨-, -, rfl⟩
    · exact isOf_deliver (Definition.of_offering? ho).1 fun _ => d.source_of_offering? ho
    · refine ⟨rfl, ?_, by simp⟩
      intro y hy
      rw [← Handling.file.inj hy]
      rfl
  · obtain ⟨a, -, ha⟩ := List.mem_filterMap.mp hanswer
    obtain ⟨⟨k, options⟩, hgiven, hdoes⟩ := Option.bind_eq_some_iff.mp ha
    obtain ⟨⟨k', s, l⟩, hlist, heq⟩ := Option.map_eq_some_iff.mp hgiven
    obtain ⟨rfl, rfl⟩ := Prod.mk.inj heq
    obtain ⟨position, hs, -, -, rfl⟩ := Config.of_listAt? hlist
    refine ⟨s, position, hs, ?_⟩
    dsimp only [Category.answer] at hdoes
    split at hdoes
    · split at hdoes
      · obtain rfl := Option.some.inj hdoes
        exact ⟨rfl, by simp, by simp⟩
      · contradiction
    · rename_i hsome
      obtain rfl := Option.some.inj hdoes
      exact isOf_deliver (by simpa using hsome) fun _ => source_of_mem_suggestions

/-- The buckets of a search, with answers put into them, have been handled by all that is done. -/
theorem withAnswers_find_eq_handled (hlong : ¬ ctx.tooShort search) :
    (ctx.find search operator g).buckets.withAnswers ctx.config answers
      = Buckets.handled (ctx.handleNames search ++ ctx.handleLater search answers) := by
  unfold handleLater
  rw [Buckets.withAnswers_eq_foldl, buckets_find_eq_handled hlong, ← Buckets.handled_append,
    List.append_assoc]

theorem bucket?_names (hlong : ¬ ctx.tooShort search) :
    ((ctx.find search operator g).buckets.withAnswers ctx.config answers).bucket?
        Category.functionsTitle = Entry.handled (ctx.aboutNames search answers) := by
  rw [withAnswers_find_eq_handled hlong, Buckets.bucket?_handled]
  rfl

/-- The names are delivered first, if there are any. -/
theorem aboutNames_eq (hsome : ctx.functionNames search ≠ []) :
    ctx.aboutNames search answers
      = .file (.deliver ⟨.functions, 0, ctx.functionNames search, none⟩) ::
        (ctx.handleLater search answers).filter (·.title == Category.functionsTitle) := by
  unfold aboutNames handleNames
  rw [if_neg (by simpa using hsome), List.filter_append]
  rfl

theorem aboutNames_eq_of_nil (hnone : ctx.functionNames search = []) :
    ctx.aboutNames search answers
      = (ctx.handleLater search answers).filter (·.title == Category.functionsTitle) := by
  unfold aboutNames handleNames
  rw [if_pos (by simp [hnone]), List.nil_append]

theorem filled_aboutNames : Handling.Filled (ctx.aboutNames search answers) := by
  intro d hd
  rcases List.mem_append.mp (List.mem_filter.mp hd).1 with hname | hlater
  · unfold handleNames at hname
    split at hname
    · contradiction
    · rename_i hsome
      obtain rfl := Filing.deliver.inj (Handling.file.inj (List.mem_singleton.mp hname))
      simpa using hsome
  · obtain ⟨s, position, -, hof⟩ := isOf_of_mem_handleLater hlater
    exact (hof.options d rfl).1

/-! ### Names that are shown have not been cut -/

/-- A bucket that shows the names holds them for its first definition, if no other delivery has
function names, and so no limit of that definition has cut them. -/
theorem uncut_of_shown {b : Bucket} (hreserved : ctx.config.ReservesFunctionSource)
    (hsome : ctx.functionNames search ≠ []) (hnodup : (ctx.functionNames search).Nodup)
    (hb : Entry.handled (ctx.aboutNames search answers) = some b) (hfronts : b.Fronts)
    (hshown : b.options = ctx.functionNames search) :
    Handling.Uncut (ctx.functionNames search) (ctx.aboutNames search answers) := by
  have hheld : b.held 0 = Handling.heldBy 0 (ctx.aboutNames search answers) := by
    rw [← Entry.held_handled, hb]
    rfl
  have hin : ctx.functionNames search
      ⊆ (Handling.heldBy 0 (ctx.aboutNames search answers)).filter (·.isFunction) := by
    intro o ho
    have hfunction := isFunction_of_mem_functionNames ho
    have hcontributed : b.Holds fun o => ∃ c ∈ b.contributions, o ∈ c.options :=
      fun c hc o ho => ⟨c, hc, ho⟩
    obtain ⟨c, hc, hmem⟩ := hcontributed.shown (hshown ▸ ho)
    have hfound : b.held c.origin = c.options := Contribution.held_of_mem hfronts.ascending hc
    rw [hfronts.front c hc o hmem hfunction] at hfound
    exact List.mem_filter.mpr ⟨hheld ▸ hfound ▸ hmem, hfunction⟩
  intro d hd horigin m hlimit
  have hplain : ∀ e, .file (.deliver e) ∈ (ctx.handleLater search answers).filter
      (·.title == Category.functionsTitle) → ∀ o ∈ e.options, o.isFunction = false := by
    intro e he o ho
    obtain ⟨s, position, hs, hof⟩ := isOf_of_mem_handleLater (List.mem_filter.mp he).1
    exact hreserved.isFunction_eq_false (List.mem_of_getElem? hs) ((hof.options e rfl).2 o ho)
  refine (hnodup.subperm hin).length_le.trans ?_
  rw [aboutNames_eq hsome] at hd ⊢
  exact Handling.length_filter_heldBy_le rfl hplain hd horigin hlimit

/-! ### The names as a whole -/

/-- While the names are not cut, all that is contributed to their category is known. -/
theorem exists_records_names (hsome : ctx.functionNames search ≠ [])
    (hpairwise : (ctx.functionNames search).Pairwise fun s t => ¬ s.agrees t = true)
    (huncut : Handling.Uncut (ctx.functionNames search) (ctx.aboutNames search answers)) :
    ∃ b, Entry.handled (ctx.aboutNames search answers) = some b ∧ b.category = .functions ∧
      b.Records (ctx.aboutNames search answers) ∧
      ctx.functionNames search <+: Handling.heldBy 0 (ctx.aboutNames search answers) := by
  rw [aboutNames_eq hsome] at huncut ⊢
  exact Entry.exists_records hpairwise hsome huncut

/-- Without names to offer, every category is that of a source. -/
theorem belongsTo_of_no_names (hlong : ¬ ctx.tooShort search)
    (hnone : ctx.functionNames search = []) :
    ∀ b ∈ (ctx.find search operator g).buckets.withAnswers ctx.config answers,
      b.category.BelongsTo ctx.config := by
  rw [withAnswers_find_eq_handled hlong]
  unfold handleNames
  rw [if_pos (by simp [hnone]), List.nil_append]
  refine Buckets.forall_category_handled (P := fun a => a.BelongsTo ctx.config) fun y hy => ?_
  obtain ⟨s, position, hs, hof⟩ := isOf_of_mem_handleLater hy
  exact ⟨position, s, hs, hof.category y rfl⟩

theorem functionNames_of_allowed (hallowed : ctx.allowFunctions = true) (search : String) :
    ctx.functionNames search = functionSuggestions search ctx.config.functions := by
  unfold functionNames
  rw [if_pos hallowed]

/-- **Function names head the list, complete and alone, just when they are spared.**  Whatever is
answered in whatever order, the first category is theirs and shows all names that contain the text
in the order of the configuration, if what is done about their title does not cut them and adds
nothing; and only then, if no source makes function names of its own.  Where no name contains the
text every category is that of a source, and there is none under their title just when what is done
about it is vacant. -/
theorem names_head_the_list_iff (ctx : SearchContext) (search : String)
    (operator : Option Operator) (g : Generation) (answers : List LookupAnswer)
    (hlong : ¬ ctx.tooShort search) (hallowed : ctx.allowFunctions = true)
    (hdistinct : (ctx.config.functions.map (·.name)).Nodup) :
    let names := functionSuggestions search ctx.config.functions
    let bs := (ctx.find search operator g).buckets.withAnswers ctx.config answers
    let calls := ctx.aboutNames search answers
    let heads := bs.head?.map (fun b => (b.title, b.options))
      = some (Category.functionsTitle, names)
    (names ≠ [] → (Handling.Spares names calls → heads) ∧
      (ctx.config.ReservesFunctionSource → heads → Handling.Spares names calls)) ∧
    (names = [] → (∀ b ∈ bs, b.category.BelongsTo ctx.config) ∧
      (bs.bucket? Category.functionsTitle = none ↔ Handling.Vacant calls)) := by
  intro names bs calls heads
  have hnames : ctx.functionNames search = names := functionNames_of_allowed hallowed search
  have hordered : bs.Ordered ctx.config := (ordered_find ..).withAnswers answers
  have hentry : bs.bucket? Category.functionsTitle = Entry.handled calls := bucket?_names hlong
  have hpairwise : names.Pairwise fun s t => ¬ s.agrees t = true :=
    pairwise_functionSuggestions hdistinct
  have hsame : ∀ s ∈ names, s.agrees s = true := fun s hs => (of_mem_functionSuggestions hs).2
  refine ⟨fun hsome => ?_, fun hnone => ?_⟩
  · have hfirst : ctx.functionNames search ≠ [] := hnames ▸ hsome
    have hkept : Handling.Uncut names calls → ∃ b, Entry.handled calls = some b ∧
        b.category = .functions ∧ b.Records calls ∧ names <+: Handling.heldBy 0 calls := by
      rw [← hnames] at hpairwise ⊢
      exact exists_records_names hfirst hpairwise
    constructor
    · intro hspares
      obtain ⟨b, hb, hcategory, hrecords, hfront⟩ := hkept hspares.uncut
      have hfound : bs.bucket? Category.functionsTitle = some b := hentry.trans hb
      refine (Buckets.head?_eq_some_iff hordered.titles).mpr ⟨b, hfound, ?_, ?_⟩
      · exact hordered.head?_of_functions (Buckets.mem_of_bucket? hfound) hcategory
      · exact (hrecords.options_eq_iff hpairwise hsame hsome hfront).mpr hspares.alone
    · intro hreserved hheads
      obtain ⟨b, hfound, -, hshown⟩ := (Buckets.head?_eq_some_iff hordered.titles).mp hheads
      have hb : Entry.handled calls = some b := hentry.symm.trans hfound
      have hfronts := fronts_withAnswers hreserved answers b (Buckets.mem_of_bucket? hfound)
      have hnodup : names.Nodup := hpairwise.imp_of_mem fun hs _ hne heq =>
        hne (heq ▸ hsame _ hs)
      have huncut : Handling.Uncut names calls := by
        rw [← hnames] at hnodup hshown ⊢
        exact uncut_of_shown hreserved hfirst hnodup hb hfronts hshown
      obtain ⟨b', hb', -, hrecords, hfront⟩ := hkept huncut
      obtain rfl : b' = b := Option.some.inj (hb'.symm.trans hb)
      exact ⟨huncut, (hrecords.options_eq_iff hpairwise hsame hsome hfront).mp hshown⟩
  · refine ⟨belongsTo_of_no_names hlong (hnames.trans hnone), ?_⟩
    rw [hentry]
    exact Entry.handled_eq_none_iff filled_aboutNames

/-- Functions beside a source of the greatest precedence, whose service answers later, and a
source that is titled like their names and finds no more than there are of these. -/
def toolbox : SearchContext where
  config :=
    { Config.ofSources
        [{ name := "size", title := "Sizes", comparisons := ["="], precedence := some Int64.maxValue
           definitions := [.list { supply := .service ⟨fun _ => [.text "fine"], fun _ => 0⟩ }] },
         { name := "tool", title := "Functions", comparisons := ["="]
           definitions := [.list
             { supply := .items [.text "Figure", .text "File"], ignoreCase := true
               itemLimit := some 2 }] }] with
      functions := [{ name := "Find" }, { name := "Sort" }, { name := "Figure" }] }
  allowFunctions := true

theorem names_head_the_list_iff_toolbox :
    let g := Generation.fresh 0
    let answers := (toolbox.find "fi" none g).pending.map (·.answered)
    let bs := (toolbox.find "fi" none g).buckets.withAnswers toolbox.config answers
    toolbox.config.check = .ok () ∧ ¬ toolbox.tooShort "fi" ∧ toolbox.allowFunctions = true ∧
      (toolbox.config.functions.map (·.name)).Nodup ∧
      bs.map (fun b => (b.title, b.options.map (·.text)))
        = [("Functions", ["Find", "Figure"]), ("Sizes", ["fine"])] ∧
      bs.head?.map (fun b => (b.title, b.options))
        = some (Category.functionsTitle, [.ofFunction "Find", .ofFunction "Figure"]) := by
  intro g answers bs
  have hlong : ¬ toolbox.tooShort "fi" := by decide
  have hdistinct : (toolbox.config.functions.map (·.name)).Nodup := by decide
  have hcalls : toolbox.aboutNames "fi" answers
      = [.file (.deliver ⟨.functions, 0, [.ofFunction "Find", .ofFunction "Figure"], none⟩),
        .file (.deliver ⟨⟨"Functions", 0, 1⟩, 0,
          [⟨"tool", .text "Figure", "Figure"⟩, ⟨"tool", .text "File", "File"⟩], some 2⟩)] := rfl
  have hspares : Handling.Spares (functionSuggestions "fi" toolbox.config.functions)
      (toolbox.aboutNames "fi" answers) := by
    rw [hcalls]
    refine ⟨?_, Or.inr ?_⟩
    · intro d hd _ m hlimit
      simp only [List.mem_cons, List.not_mem_nil, or_false, Handling.file.injEq,
        Filing.deliver.injEq] at hd
      rcases hd with rfl | rfl
      · contradiction
      · obtain rfl := Option.some.inj hlimit
        decide
    · -- The category has room for the names alone.
      intro origin d hd
      cases origin with
      | zero =>
          obtain rfl := Option.some.inj hd
          exact ⟨2, by decide, rfl⟩
      | succ n => simp [Handling.lastOf, Handling.delivery?, Filing.delivery?] at hd
  obtain ⟨hheads, -⟩ := (names_head_the_list_iff toolbox "fi" none g answers hlong rfl
    hdistinct).1 (by decide)
  exact ⟨rfl, hlong, rfl, hdistinct, by decide, hheads hspares⟩

/-- Functions beside a source that is titled like their names and finds one item at most. -/
def namesake : SearchContext where
  config :=
    { Config.ofSources
        [{ name := "tool", title := "Functions", comparisons := ["="]
           definitions := [.list
             { supply := .items [.text "File"], ignoreCase := true, itemLimit := some 1 }] }] with
      functions := [{ name := "Find" }, { name := "Figure" }] }
  allowFunctions := true

/-- **The limit of a source that is titled like the function names cuts them.** -/
theorem names_cut_by_namesake :
    namesake.config.check = .ok () ∧ (namesake.config.functions.map (·.name)).Nodup ∧
      ¬ namesake.tooShort "fi" ∧ (namesake.find "fi" none (.fresh 0)).pending.length = 0 ∧
      (functionSuggestions "fi" namesake.config.functions).map (·.text) = ["Find", "Figure"] ∧
      (namesake.find "fi" none (.fresh 0)).buckets.map (fun b => (b.title, b.options.map (·.text)))
        = [("Functions", ["Find"])] :=
  ⟨rfl, by decide, by decide, by decide, by decide, by decide⟩

/-! ### Without a namesake -/

/-- No source is titled like the category of the function names. -/
def LacksNamesake (ctx : SearchContext) : Prop :=
  ∀ s ∈ ctx.config.sources, s.title ≠ Category.functionsTitle

theorem LacksNamesake.filter_handleLater (h : ctx.LacksNamesake) :
    (ctx.handleLater search answers).filter (·.title == Category.functionsTitle) = [] := by
  rw [List.filter_eq_nil_iff]
  intro x hx
  obtain ⟨s, position, hs, hof⟩ := isOf_of_mem_handleLater hx
  rw [hof.title]
  simpa using h s (List.mem_of_getElem? hs)

/-- **Without a source of their title the names are spared**, whatever limits and precedences the
sources have, and whatever is answered. -/
theorem spares_of_no_namesake (h : ctx.LacksNamesake) (hallowed : ctx.allowFunctions = true)
    (hdistinct : (ctx.config.functions.map (·.name)).Nodup)
    (hsome : functionSuggestions search ctx.config.functions ≠ []) :
    Handling.Spares (functionSuggestions search ctx.config.functions)
      (ctx.aboutNames search answers) := by
  have hnames := functionNames_of_allowed hallowed search
  rw [aboutNames_eq (hnames ▸ hsome), h.filter_handleLater, hnames]
  refine ⟨?_, Or.inl ?_⟩
  · intro d hd _ m hlimit
    obtain rfl := Filing.deliver.inj (Handling.file.inj (List.mem_singleton.mp hd))
    contradiction
  · intro origin o ho
    rw [← List.nil_append [_], Handling.heldBy_concat_deliver] at ho
    split at ho
    · have hjoin : Suggestion.joinDistinct [] (functionSuggestions search ctx.config.functions)
          = functionSuggestions search ctx.config.functions :=
        Suggestion.joinDistinct_nil_of_pairwise (pairwise_functionSuggestions hdistinct)
      have hname : o ∈ functionSuggestions search ctx.config.functions := hjoin ▸ ho
      exact ⟨o, hname, (of_mem_functionSuggestions hname).2⟩
    · contradiction

theorem vacant_of_no_namesake (h : ctx.LacksNamesake) (hallowed : ctx.allowFunctions = true)
    (hnone : functionSuggestions search ctx.config.functions = []) :
    Handling.Vacant (ctx.aboutNames search answers) := by
  have hnames := functionNames_of_allowed hallowed search
  rw [aboutNames_eq_of_nil (hnames.trans hnone), h.filter_handleLater]
  exact ⟨by simp, by simp [Handling.lastOf]⟩

end SearchContext

end QueryBar
