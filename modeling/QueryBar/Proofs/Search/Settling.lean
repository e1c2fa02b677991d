/-
What is offered once all services have answered.

A settled offer is what a list of handlings leaves (`SearchContext.settling`): the function names
are delivered, every definition delivers what it has at once or keeps the place for its service,
and then every service delivers what it has found, or releases the place.

A place that is kept is always taken up: the service that it is kept for delivers or releases
later.  So nothing is left that shows nothing, unless what was delivered does not count because of
limits of nought (`settled_offer_filled_iff`).
-/
import QueryBar.Proofs.Buckets.Slots
import QueryBar.Proofs.Search.Handlings

namespace QueryBar

open Buckets (Handling)

/-! ### Answers as handlings -/

/-- A service delivers what it has found; if that is nothing, it may release the place. -/
def Category.answer (category : Category) (releases : Bool) (origin : Nat) (o : Offering) :
    Option Handling :=
  if o.options.isEmpty then if releases then some (.release category.title) else none
  else some (.file (.deliver ⟨category, origin, o.options, o.limit⟩))

/-- What an answer does to the buckets. -/
def Config.handling? (c : Config) (a : LookupAnswer) : Option Handling :=
  (c.given? a).bind fun (k, options) =>
    k.category.answer c.showWhenSearching k.origin ⟨options, some k.limit⟩

namespace Buckets

variable {bs : Buckets} {c : Config}

theorem withAnswer_eq_handle (bs : Buckets) (c : Config) (a : LookupAnswer) :
    bs.withAnswer c a = (c.handling? a).elim bs bs.handle := by
  rw [withAnswer_eq]
  unfold Config.handling? Category.answer
  cases c.given? a with
  | none => rfl
  | some p =>
      obtain ⟨k, options⟩ := p
      rw [Option.bind_some]
      dsimp only
      split
      · split <;> rfl
      · rfl

/-- Putting answers into buckets is handling them. -/
theorem withAnswers_eq_foldl (bs : Buckets) (c : Config) (answers : List LookupAnswer) :
    bs.withAnswers c answers = (answers.filterMap c.handling?).foldl handle bs := by
  induction answers generalizing bs with
  | nil => rfl
  | cons a rest ih =>
      show (bs.withAnswer c a).withAnswers c rest = _
      rw [ih, withAnswer_eq_handle, List.filterMap_cons]
      cases c.handling? a <;> rfl

theorem length_flatMap_options_le_total (bs : Buckets) :
    (bs.flatMap (·.options)).length ≤ bs.total := by
  induction bs with
  | nil => exact Nat.le_refl 0
  | cons b rest ih =>
      rw [List.flatMap_cons, List.length_append, total_cons]
      exact Nat.add_le_add (Nat.le_max_left b.options.length 1) ih

/-- There are as many slots as suggestions just when every bucket has a suggestion. -/
theorem total_eq_iff (bs : Buckets) :
    bs.total = (bs.flatMap (·.options)).length ↔ ∀ b ∈ bs, b.options ≠ [] := by
  induction bs with
  | nil => exact iff_of_true rfl (by simp)
  | cons b rest ih =>
      have hle := length_flatMap_options_le_total rest
      have hpos : b.options ≠ [] ↔ 0 < b.options.length := List.length_pos_iff.symm
      rw [List.forall_mem_cons, ← ih, hpos, total_cons, List.flatMap_cons, List.length_append]
      unfold Bucket.slotCount
      omega

/-- No bucket is a placeholder just when every entry shows something, if it is there. -/
theorem forall_isPlaceholder_iff (htitles : (bs.map (·.title)).Nodup) :
    (∀ b ∈ bs, b.isPlaceholder = false) ↔ ∀ title, Entry.Shown (bs.bucket? title) := by
  constructor
  · exact fun h title b hb => h b (mem_of_bucket? hb)
  · exact fun h b hb => h b.title b ((mem_iff_bucket? htitles).mp hb)

end Buckets

namespace SearchContext

variable {ctx : SearchContext} {search text title : String} {operator : Option Operator}
  {g : Generation} {s : Source} {position index : Nat} {d : Definition} {x : Handling}

instance : Decidable (ctx.tooShort search) :=
  inferInstanceAs (Decidable (search.length = 0 ∨ search.length < ctx.config.startLength))

/-! ### What is done to the buckets -/

/-- What the definitions of the eligible sources do, one after the other. -/
def handlingsBy (ctx : SearchContext)
    (does : Source → Nat → Definition → Nat → Option Handling) : List Handling :=
  ctx.config.sources.zipIdx.flatMap fun (s, position) =>
    if s.eligible ctx.function then
      s.definitions.zipIdx.filterMap fun (d, index) => does s position d index
    else []

/-- The function names are delivered, if there are any. -/
def handleNames (ctx : SearchContext) (search : String) : List Handling :=
  if (ctx.functionNames search).isEmpty then []
  else [.file (.deliver ⟨.functions, 0, ctx.functionNames search, none⟩)]

/-- A definition delivers what it has at once, or the place may be kept for its service. -/
def handleAtOnce (ctx : SearchContext) (search : String) (s : Source) (position : Nat)
    (d : Definition) (index : Nat) : Option Handling :=
  match d.offering? s ctx.config.itemLimit search with
  | some o => some (.file (.deliver ⟨.ofSource s position, index, o.options, o.limit⟩))
  | none =>
    if ctx.config.showWhenSearching && (d.service? search).isSome then
      some (.file (.reserve (.ofSource s position)))
    else none

/-- A definition whose service has been asked does what the answer does. -/
def handleAnswer (ctx : SearchContext) (search : String) (operator : Option Operator) (s : Source)
    (position : Nat) (d : Definition) (index : Nat) : Option Handling :=
  (d.served? s ctx.config.itemLimit (ctx.question search operator)).bind
    ((Category.ofSource s position).answer ctx.config.showWhenSearching index)

/-- All that a search does until it is settled. -/
def handlings (ctx : SearchContext) (search : String) (operator : Option Operator) :
    List Handling :=
  if ctx.tooShort search then []
  else ctx.handleNames search ++ ctx.handlingsBy (ctx.handleAtOnce search)
    ++ ctx.handlingsBy (ctx.handleAnswer search operator)

/-- All that is done for the settled offer for a text. -/
def settling (ctx : SearchContext) (text : String) : List Handling :=
  let tokens := Tokens.ofText ctx.config ctx.function text
  if tokens.freeText || tokens.bracket.isSome then []
  else ctx.handlings tokens.remainder tokens.operator

theorem mem_handlingsBy {does : Source → Nat → Definition → Nat → Option Handling} :
    x ∈ ctx.handlingsBy does ↔ ∃ s position d index, ctx.config.sources[position]? = some s ∧
      s.eligible ctx.function = true ∧ s.definitions[index]? = some d ∧
        does s position d index = some x := by
  unfold handlingsBy
  rw [List.mem_flatMap]
  constructor
  · rintro ⟨⟨s, position⟩, hs, hx⟩
    dsimp only at hx
    split at hx
    · rename_i heligible
      obtain ⟨⟨d, index⟩, hd, hdoes⟩ := List.mem_filterMap.mp hx
      exact ⟨s, position, d, index, List.mem_zipIdx_iff_getElem?.mp hs, heligible,
        List.mem_zipIdx_iff_getElem?.mp hd, hdoes⟩
    · contradiction
  · rintro ⟨s, position, d, index, hs, heligible, hd, hdoes⟩
    refine ⟨(s, position), List.mem_zipIdx_iff_getElem?.mpr hs, ?_⟩
    dsimp only
    rw [if_pos heligible]
    exact List.mem_filterMap.mpr ⟨(d, index), List.mem_zipIdx_iff_getElem?.mpr hd, hdoes⟩

/-! ### The handlings of a search -/

/-- The buckets that a search comes to have been handled by what it does at once. -/
theorem buckets_find_eq_handled (hlong : ¬ ctx.tooShort search) :
    (ctx.find search operator g).buckets
      = Buckets.handled (ctx.handleNames search ++ ctx.handlingsBy (ctx.handleAtOnce search)) := by
  have hnames : ctx.functionBuckets search = Buckets.handled (ctx.handleNames search) := by
    unfold handleNames
    rw [functionBuckets_eq]
    split <;> rfl
  have hdefinition : ∀ (s : Source) (position : Nat) (bs : Buckets) (p : Definition × Nat),
      ctx.bucketsAfter search s (.ofSource s position) bs p.1 p.2
        = (ctx.handleAtOnce search s position p.1 p.2).elim bs bs.handle := by
    intro s position bs p
    unfold bucketsAfter handleAtOnce
    cases p.1.offering? s ctx.config.itemLimit search with
    | some o => rfl
    | none =>
        dsimp only
        split <;> rfl
  rw [find_eq hlong, Buckets.handled_append, hnames]
  unfold handlingsBy
  rw [List.foldl_flatMap]
  refine List.foldl_ext _ _ _ ?_
  rintro bs ⟨s, position⟩ -
  show ctx.bucketsAfterSource search bs s position = List.foldl _ _ (if _ then _ else _)
  unfold bucketsAfterSource
  split
  · rw [List.foldl_filterMap]
    refine List.foldl_ext _ _ _ ?_
    rintro bs ⟨d, index⟩ -
    dsimp only
    rw [hdefinition s position bs (d, index)]
    cases ctx.handleAtOnce search s position d index <;> rfl
  · rfl

/-- Answers to the requests of a search do what the definitions are said to do. -/
theorem filterMap_handling?_pending (hnames : (ctx.config.sources.map (·.name)).Nodup)
    (hlong : ¬ ctx.tooShort search) :
    ((ctx.find search operator g).pending.map (·.answered)).filterMap ctx.config.handling?
      = ctx.handlingsBy (ctx.handleAnswer search operator) := by
  have hsources : ctx.config.sources.flatMap (ctx.requestsFor search operator g)
      = ctx.config.sources.zipIdx.flatMap fun (s, _) => ctx.requestsFor search operator g s := by
    conv_lhs => rw [← List.zipIdx_map_fst 0 ctx.config.sources, List.flatMap_map]
  rw [find_eq hlong]
  dsimp only
  rw [hsources, List.filterMap_map, List.filterMap_flatMap]
  unfold handlingsBy
  refine List.flatMap_congr ?_
  rintro ⟨s, position⟩ hs
  have hplace := List.mem_zipIdx_iff_getElem?.mp hs
  show List.filterMap _ (ctx.requestsFor search operator g s) = if _ then _ else _
  unfold requestsFor
  split
  · rw [List.filterMap_filterMap]
    refine List.filterMap_congr ?_
    rintro ⟨d, index⟩ hd
    have hdefinition := List.mem_zipIdx_iff_getElem?.mp hd
    show ((d.service? search).map _).bind _ = (d.served? s _ _).bind _
    cases d with
    | test t => rfl
    | list l =>
        show _ = ((((Definition.list l).service? search).map _).bind _ : Option Handling)
        cases (Definition.list l).service? search with
        | none => rfl
        | some service =>
            show ((ctx.config.listAt? s.name index).map _).bind _ = _
            rw [Config.listAt?_of_place hnames hplace hdefinition]
            rfl
  · rfl

/-- **A settled offer is what all of its handlings leave.** -/
theorem settledOffer_eq_handled (hnames : (ctx.config.sources.map (·.name)).Nodup)
    (text : String) : (ctx.settledOffer text).buckets = Buckets.handled (ctx.settling text) := by
  unfold settling
  dsimp only
  split
  · rename_i haside
    exact settledOffer_of_aside haside
  · rename_i hsearched
    rw [settledOffer_of_searched (by simpa using hsearched)]
    unfold handlings Findings.settled
    split
    · rename_i hshort
      rw [find_of_tooShort hshort]
      rfl
    · rename_i hlong
      rw [Buckets.withAnswers_eq_foldl, filterMap_handling?_pending hnames hlong,
        buckets_find_eq_handled hlong, ← Buckets.handled_append]

/-! ### What is done last -/

theorem mem_handlings : x ∈ ctx.handlings search operator ↔ ¬ ctx.tooShort search ∧
    (x ∈ ctx.handleNames search ∨ x ∈ ctx.handlingsBy (ctx.handleAtOnce search) ∨
      x ∈ ctx.handlingsBy (ctx.handleAnswer search operator)) := by
  unfold handlings
  split
  · rename_i hshort
    simp [hshort]
  · rename_i hlong
    simp [hlong]

/-- What a definition does at once. -/
theorem of_handleAtOnce (h : ctx.handleAtOnce search s position d index = some x) :
    (∃ o, d.offering? s ctx.config.itemLimit search = some o ∧
      x = .file (.deliver ⟨.ofSource s position, index, o.options, o.limit⟩)) ∨
    (ctx.config.showWhenSearching = true ∧ (d.service? search).isSome = true ∧
      x = .file (.reserve (.ofSource s position))) := by
  unfold handleAtOnce at h
  split at h
  · rename_i o ho
    exact Or.inl ⟨o, ho, (Option.some.inj h).symm⟩
  · split at h
    · rename_i hkept
      rw [Bool.and_eq_true] at hkept
      exact Or.inr ⟨hkept.1, hkept.2, (Option.some.inj h).symm⟩
    · contradiction

/-- What a definition does when its service has answered. -/
theorem of_handleAnswer (h : ctx.handleAnswer search operator s position d index = some x) :
    ∃ o, d.served? s ctx.config.itemLimit (ctx.question search operator) = some o ∧
      (x = .release s.title ∨ o.options ≠ [] ∧
        x = .file (.deliver ⟨.ofSource s position, index, o.options, o.limit⟩)) := by
  obtain ⟨o, ho, hx⟩ := Option.bind_eq_some_iff.mp h
  refine ⟨o, ho, ?_⟩
  unfold Category.answer at hx
  split at hx
  · split at hx
    · exact Or.inl (Option.some.inj hx).symm
    · contradiction
  · rename_i hoptions
    exact Or.inr ⟨by simpa using hoptions, (Option.some.inj hx).symm⟩

/-- Where a place can be kept for a service, its answer does something about the category. -/
theorem exists_handleAnswer (operator : Option Operator) (s : Source) (position index : Nat)
    (hshow : ctx.config.showWhenSearching = true) (hservice : (d.service? search).isSome = true) :
    ∃ x, ctx.handleAnswer search operator s position d index = some x ∧ x.title = s.title := by
  obtain ⟨service, hservice⟩ := Option.isSome_iff_exists.mp hservice
  cases d with
  | test t => contradiction
  | list l =>
      unfold handleAnswer
      rw [Definition.served?_of_service? (q := ctx.question search operator) hservice,
        Option.bind_some]
      unfold Category.answer
      rw [if_pos hshow]
      split
      · exact ⟨_, rfl, rfl⟩
      · exact ⟨_, rfl, rfl⟩

/-- What is delivered is something, and its limit is nought only if that of a list is. -/
theorem of_deliver_mem_handlings {e : Delivery}
    (h : .file (.deliver e) ∈ ctx.handlings search operator) :
    e.options ≠ [] ∧ (e.limit = some 0 → ∃ s ∈ ctx.config.sources,
      s.eligible ctx.function = true ∧ ∃ l, .list l ∈ s.definitions ∧
        l.limit ctx.config.itemLimit = 0) := by
  rcases (mem_handlings.mp h).2 with hname | honce | hanswer
  · unfold handleNames at hname
    split at hname
    · contradiction
    · rename_i hnames
      obtain rfl := Filing.deliver.inj (Handling.file.inj (List.mem_singleton.mp hname))
      exact ⟨by simpa using hnames, by simp⟩
  · obtain ⟨s, position, d, index, hs, heligible, hd, hdoes⟩ := mem_handlingsBy.mp honce
    rcases of_handleAtOnce hdoes with ⟨o, ho, heq⟩ | ⟨-, -, heq⟩
    · obtain rfl := Filing.deliver.inj (Handling.file.inj heq)
      obtain ⟨hoptions, hzero⟩ := Definition.of_offering? ho
      refine ⟨hoptions, fun hlimit => ?_⟩
      obtain ⟨l, rfl, hl⟩ := hzero hlimit
      exact ⟨s, List.mem_of_getElem? hs, heligible, l, List.mem_of_getElem? hd, hl⟩
    · exact absurd (Handling.file.inj heq) (by simp)
  · obtain ⟨s, position, d, index, hs, heligible, hd, hdoes⟩ := mem_handlingsBy.mp hanswer
    obtain ⟨o, ho, heq | ⟨hoptions, heq⟩⟩ := of_handleAnswer hdoes
    · contradiction
    · obtain rfl := Filing.deliver.inj (Handling.file.inj heq)
      refine ⟨hoptions, fun hlimit => ?_⟩
      obtain ⟨l, rfl, hl⟩ := Definition.of_served? ho
      exact ⟨s, List.mem_of_getElem? hs, heligible, l, List.mem_of_getElem? hd,
        Option.some.inj (hl.symm.trans hlimit)⟩

/-- **A place that is kept is taken up**: keeping it is never the last that is done about its
title. -/
theorem getLast?_handlings_ne_reserve (search title : String) (operator : Option Operator)
    (c : Category) : ((ctx.handlings search operator).filter (·.title == title)).getLast?
      ≠ some (.file (.reserve c)) := by
  intro hlast
  by_cases hlong : ctx.tooShort search
  · unfold handlings at hlast
    rw [if_pos hlong] at hlast
    contradiction
  · have hsplit : ctx.handlings search operator
        = (ctx.handleNames search ++ ctx.handlingsBy (ctx.handleAtOnce search))
          ++ ctx.handlingsBy (ctx.handleAnswer search operator) := if_neg hlong
    rw [hsplit, List.filter_append, List.getLast?_append] at hlast
    cases hanswers : ((ctx.handlingsBy (ctx.handleAnswer search operator)).filter
        (·.title == title)).getLast? with
    | some x =>
        -- Answers deliver or release.
        rw [hanswers] at hlast
        obtain rfl : x = .file (.reserve c) := Option.some.inj hlast
        have hmem := (List.mem_filter.mp (List.mem_of_getLast? hanswers)).1
        obtain ⟨s, position, d, index, -, -, -, hdoes⟩ := mem_handlingsBy.mp hmem
        obtain ⟨o, -, heq | ⟨-, heq⟩⟩ := of_handleAnswer hdoes
        · contradiction
        · exact absurd (Handling.file.inj heq) (by simp)
    | none =>
        -- The service that the place is kept for has answered, so that something was done later.
        rw [hanswers] at hlast
        have hnone := List.getLast?_eq_none_iff.mp hanswers
        obtain ⟨hmem, htitle⟩ := List.mem_filter.mp (List.mem_of_getLast? hlast)
        rcases List.mem_append.mp hmem with hname | honce
        · unfold handleNames at hname
          split at hname
          · contradiction
          · exact absurd (Handling.file.inj (List.mem_singleton.mp hname)) (by simp)
        · obtain ⟨s, position, d, index, hs, heligible, hd, hdoes⟩ := mem_handlingsBy.mp honce
          rcases of_handleAtOnce hdoes with ⟨o, -, heq⟩ | ⟨hshow, hservice, heq⟩
          · exact absurd (Handling.file.inj heq) (by simp)
          · obtain rfl := Filing.reserve.inj (Handling.file.inj heq)
            obtain ⟨x, hx, hxtitle⟩ :=
              exists_handleAnswer operator s position index hshow hservice
            have hin : x ∈ (ctx.handlingsBy (ctx.handleAnswer search operator)).filter
                (·.title == title) := by
              refine List.mem_filter.mpr
                ⟨mem_handlingsBy.mpr ⟨s, position, d, index, hs, heligible, hd, hx⟩, ?_⟩
              rw [hxtitle]
              exact htitle
            rw [hnone] at hin
            contradiction

/-! ### What is left -/

/-- The settled offer for a text has nothing to handle, or what a search does. -/
theorem settling_eq_or (ctx : SearchContext) (text : String) :
    ctx.settling text = [] ∨
      ∃ search operator, ctx.settling text = ctx.handlings search operator := by
  unfold settling
  dsimp only
  split
  · exact Or.inl rfl
  · exact Or.inr ⟨_, _, rfl⟩

theorem of_deliver_mem_settling {e : Delivery} (h : .file (.deliver e) ∈ ctx.settling text) :
    e.options ≠ [] ∧ (e.limit = some 0 → ∃ s ∈ ctx.config.sources,
      s.eligible ctx.function = true ∧ ∃ l, .list l ∈ s.definitions ∧
        l.limit ctx.config.itemLimit = 0) := by
  rcases ctx.settling_eq_or text with hnone | ⟨search, operator, hsome⟩
  · rw [hnone] at h
    contradiction
  · exact of_deliver_mem_handlings (hsome ▸ h)

theorem getLast?_settling_ne_reserve (ctx : SearchContext) (text title : String) (c : Category) :
    ((ctx.settling text).filter (·.title == title)).getLast? ≠ some (.file (.reserve c)) := by
  rcases ctx.settling_eq_or text with hnone | ⟨search, operator, hsome⟩
  · rw [hnone]
    simp
  · rw [hsome]
    exact getLast?_handlings_ne_reserve search title operator c

/-- **Where no list has a limit of nought, nothing is hollow**, whatever the services answer. -/
theorem not_hollow_of_limits
    (hlimits : ∀ s ∈ ctx.config.sources, s.eligible ctx.function = true →
      ∀ l, .list l ∈ s.definitions → l.limit ctx.config.itemLimit ≠ 0) (text title : String) :
    ¬ Handling.Hollow ((ctx.settling text).filter (·.title == title)) := by
  intro hhollow
  obtain ⟨d, hd, hzero⟩ := hhollow.exists_nought
  obtain ⟨s, hs, heligible, l, hl, hlimit⟩ :=
    (of_deliver_mem_settling (List.mem_filter.mp hd).1).2 hzero
  exact hlimits s hs heligible l hl hlimit

/-- **Nothing is left loading in a settled offer, just when nothing is hollow.**  Every bucket has a
suggestion, there are as many slots as suggestions and no bucket is a placeholder, unless about some
title a delivery is done last and the last deliveries of all its definitions have a limit of
nought. -/
theorem settled_offer_filled_iff (ctx : SearchContext) (text : String)
    (hcheck : ctx.config.check = .ok ()) :
    let bs := (ctx.settledOffer text).buckets
    ((∀ b ∈ bs, b.options ≠ []) ∧ bs.total = (bs.flatMap (·.options)).length ∧
        ∀ b ∈ bs, b.isPlaceholder = false)
      ↔ ∀ title, ¬ Handling.Hollow ((ctx.settling text).filter (·.title == title)) := by
  intro bs
  have hbs : bs = Buckets.handled (ctx.settling text) :=
    settledOffer_eq_handled (Config.nodup_names hcheck) text
  have hentries : (∀ title, Entry.Shown (bs.bucket? title))
      ↔ ∀ title, ¬ Handling.Hollow ((ctx.settling text).filter (·.title == title)) := by
    refine forall_congr' fun title => ?_
    rw [hbs, Buckets.bucket?_handled]
    refine Entry.shown_handled_iff ?_ (ctx.getLast?_settling_ne_reserve text title)
    exact fun d hd => (of_deliver_mem_settling (List.mem_filter.mp hd).1).1
  have htitles : (bs.map (·.title)).Nodup := hbs ▸ (Buckets.wellKept_handled _).1.titles
  rw [← hentries, ← Buckets.forall_isPlaceholder_iff htitles]
  constructor
  · exact fun h => h.2.2
  · intro hshown
    have hoptions : ∀ b ∈ bs, b.options ≠ [] := by
      intro b hb
      have hseen := hshown b hb
      simpa [Bucket.isPlaceholder] using hseen
    exact ⟨hoptions, (Buckets.total_eq_iff bs).mpr hoptions, hshown⟩

/-- Colours and shades, in lists with a limit of nought and from services. -/
def noughtAndServices : SearchContext where
  config :=
    { Config.ofSources
        [{ name := "colour", title := "Colours", comparisons := ["="]
           definitions := [.list { supply := .items [.text "red"], itemLimit := some 0 },
             .list { supply := .service ⟨fun _ => [], fun _ => 0⟩ }] },
         { name := "shade", title := "Shades", comparisons := ["="]
           definitions := [.list { supply := .items [.text "red"], itemLimit := some 0 },
             .list { supply := .service ⟨fun _ => [.text "reddish"], fun _ => 0⟩ }] }] with
      showWhenSearching := true }

theorem settled_offer_filled_iff_noughtAndServices :
    let bs := (noughtAndServices.settledOffer "re").buckets
    noughtAndServices.config.check = .ok () ∧
      (∀ title, ¬ Handling.Hollow
        ((noughtAndServices.settling "re").filter (·.title == title))) ∧
      (∀ b ∈ bs, b.options ≠ []) ∧ bs.total = 1 ∧
      bs.map (fun b => (b.title, b.options.map (·.text))) = [("Shades", ["reddish"])] := by
  intro bs
  have hcheck : noughtAndServices.config.check = .ok () := rfl
  have hfilled : ∀ title, ¬ Handling.Hollow
      ((noughtAndServices.settling "re").filter (·.title == title)) := by
    intro title hhollow
    obtain ⟨d, hlast⟩ := hhollow.delivered
    have hmem := List.mem_filter.mp (List.mem_of_getLast? hlast)
    have htitles : (noughtAndServices.settling "re").map Handling.title
        = ["Colours", "Colours", "Shades", "Shades", "Colours", "Shades"] := by decide
    have htitle : title = "Colours" ∨ title = "Shades" := by
      have hin := List.mem_map_of_mem (f := Handling.title) hmem.1
      rw [htitles, beq_iff_eq.mp hmem.2] at hin
      simp only [List.mem_cons, List.not_mem_nil, or_false] at hin
      tauto
    rcases htitle with rfl | rfl
    · -- The empty answer about the colours comes last.
      have hreleased : ((noughtAndServices.settling "re").filter
          (·.title == "Colours")).getLast? = some (.release "Colours") := rfl
      exact absurd (Option.some.inj (hreleased.symm.trans hlast)) (by simp)
    · -- The answer about the shades has a limit of its own.
      have hcounts := hhollow.spent 1 _ rfl
      contradiction
  obtain ⟨hoptions, -, -⟩ :=
    (settled_offer_filled_iff noughtAndServices "re" hcheck).mpr hfilled
  exact ⟨hcheck, hfilled, hoptions, by decide, by decide⟩

/-- A list with a limit of nought, and no service. -/
def noughtOnly : SearchContext where
  config :=
    Config.ofSources
      [{ name := "colour", title := "Colours", comparisons := ["="]
         definitions := [.list { supply := .items [.text "red"], itemLimit := some 0 }] }]

/-- **Under a limit of nought a category is left that looks as if it were loading**, though no
service has been asked. -/
theorem settled_offer_left_loading :
    let offer := noughtOnly.settledOffer "re"
    noughtOnly.config.check = .ok () ∧ (noughtOnly.offer "re").pending.length = 0 ∧
      offer.buckets.map (fun b => (b.title, b.options.length, b.isPlaceholder))
        = [("Colours", 0, true)] ∧
      offer.buckets.total = 1 :=
  ⟨rfl, by decide, by decide, by decide⟩

end SearchContext

end QueryBar
