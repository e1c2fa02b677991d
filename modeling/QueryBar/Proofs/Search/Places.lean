/-
The places that are kept for categories whose lookups are under way.

If lookups are waited for in view, every category with a lookup to be answered has a place from
the start (`exists_place_find`): it is reserved when the service is asked, and nothing that a
search does takes a place away.  Of the answers only an empty one does, and only from a category
that shows nothing when it comes (`HasPlace.withAnswers`).
-/
import QueryBar.Proofs.Search.Arrival

namespace QueryBar

/-- The source that stands at the place of a name is the one that the name stands for. -/
theorem Config.source?_of_sourceAt? {c : Config} {name : String} {position : Nat} {s : Source}
    (h : c.sourceAt? name = some (position, s)) : c.source? name = some s := by
  unfold sourceAt? at h
  split at h
  · rename_i hfound
    obtain ⟨-, rfl⟩ := Prod.mk.inj (Option.some.inj h)
    exact hfound
  · contradiction

/-- The answer is an empty one for the category with a title. -/
def LookupAnswer.EmptyFor (a : LookupAnswer) (c : Config) (title : String) : Prop :=
  a.items = [] ∧ ∃ s, c.source? a.source = some s ∧ s.title = title

namespace Buckets

variable {c : Config} {bs : Buckets} {title : String} {a : LookupAnswer}
  {answers : List LookupAnswer}

/-- There is a category with a title, whether or not it shows anything. -/
def HasPlace (bs : Buckets) (title : String) : Prop := (bs.bucket? title).isSome = true

/-- An empty answer for the category comes when it shows nothing. -/
def GivesUp (bs : Buckets) (c : Config) (title : String) (answers : List LookupAnswer) : Prop :=
  ∃ before a after, answers = before ++ a :: after ∧ a.EmptyFor c title ∧
    ∃ b, (bs.withAnswers c before).bucket? title = some b ∧ b.isPlaceholder = true

/-! ### What a search does -/

theorem HasPlace.merge (h : bs.HasPlace title) (category : Category) (origin : Nat)
    (options : List Suggestion) (limit : Option Nat) :
    (bs.merge category origin options limit).HasPlace title := by
  unfold HasPlace at h ⊢
  rw [bucket?_merge]
  split
  · rfl
  · exact h

theorem HasPlace.reserve (h : bs.HasPlace title) (category : Category) :
    (bs.reserve category).HasPlace title := by
  unfold HasPlace at h ⊢
  rw [bucket?_reserve]
  split
  · rfl
  · exact h

theorem hasPlace_reserve (bs : Buckets) (category : Category) :
    (bs.reserve category).HasPlace category.title := by
  unfold HasPlace
  rw [bucket?_reserve, if_pos rfl]
  rfl

/-! ### What answers do -/

/-- A category that shows something is not released. -/
theorem HasPlace.release {released : String} (h : bs.HasPlace title)
    (hkept : released = title → ∀ b, bs.bucket? title = some b → b.isPlaceholder = false) :
    (bs.release released).HasPlace title := by
  obtain ⟨b, hb⟩ := Option.isSome_iff_exists.mp h
  have htitle : b.title = title := by simpa using List.find?_some hb
  have hstays : b ∈ bs.release released := by
    refine List.mem_filter.mpr ⟨mem_of_bucket? hb, ?_⟩
    rw [Bool.not_eq_true', Bool.and_eq_false_iff, beq_eq_false_iff_ne]
    by_cases hsame : released = title
    · exact Or.inr (hkept hsame b hb)
    · exact Or.inl fun heq => hsame (heq.symm.trans htitle)
  unfold HasPlace
  rw [← Option.not_isNone, Bool.not_eq_true', Bool.eq_false_iff, ne_eq,
    Option.isNone_iff_eq_none, bucket?_eq_none]
  exact fun hnone => hnone b hstays htitle

/-- **An answer takes the place of a category away only if it is empty and nothing is shown
there.** -/
theorem HasPlace.withAnswer (h : bs.HasPlace title)
    (hkept : a.EmptyFor c title → ∀ b, bs.bucket? title = some b → b.isPlaceholder = false) :
    (bs.withAnswer c a).HasPlace title := by
  unfold Buckets.withAnswer withAnswer?
  split
  · exact h
  · rename_i position s hfound
    split
    · split
      · exact h.merge ..
      · rename_i hempty
        split
        · dsimp only
          split
          · exact h
          · refine h.release fun htitle => hkept ⟨?_, s, Config.source?_of_sourceAt? hfound, htitle⟩
            simpa using hempty
        · exact h
    · exact h

/-- **A place stays while answers come**, unless it is given up. -/
theorem HasPlace.withAnswers (h : bs.HasPlace title) (hkept : ¬ bs.GivesUp c title answers) :
    (bs.withAnswers c answers).HasPlace title := by
  induction answers generalizing bs with
  | nil => exact h
  | cons a rest ih =>
      have hfirst : (bs.withAnswer c a).HasPlace title := by
        refine h.withAnswer fun hempty b hb => ?_
        rw [← Bool.not_eq_true]
        exact fun hnothing => hkept ⟨[], a, rest, rfl, hempty, b, hb, hnothing⟩
      refine ih hfirst ?_
      rintro ⟨before, a', after, rfl, hempty, hnothing⟩
      exact hkept ⟨a :: before, a', after, rfl, hempty, hnothing⟩

end Buckets

namespace SearchContext

variable {ctx : SearchContext} {search title : String} {operator : Option Operator}
  {g : Generation} {s : Source} {bs : Buckets} {r : LookupRequest}

/-! ### Places from the start -/

/-- What a step makes and no other step takes away is there in the end. -/
private theorem foldl_of_mem {α β : Type} {P : β → Prop} {f : β → α → β} {x : α} {xs : List α}
    (hx : x ∈ xs) (hmakes : ∀ b, P (f b x)) (hkeeps : ∀ b a, P b → P (f b a)) (b : β) :
    P (xs.foldl f b) := by
  obtain ⟨before, after, rfl⟩ := List.append_of_mem hx
  rw [List.foldl_append, List.foldl_cons]
  exact List.foldlRecOn after f (hmakes _) fun b hb a _ => hkeeps b a hb

theorem hasPlace_bucketsAfter (h : bs.HasPlace title) (category : Category) (d : Definition)
    (index : Nat) : (ctx.bucketsAfter search s category bs d index).HasPlace title := by
  unfold bucketsAfter
  split
  · exact h.merge ..
  · split
    · exact h.reserve _
    · exact h

theorem hasPlace_bucketsAfterSource (h : bs.HasPlace title) (s : Source) (position : Nat) :
    (ctx.bucketsAfterSource search bs s position).HasPlace title := by
  unfold bucketsAfterSource
  split
  · refine List.foldlRecOn (motive := (Buckets.HasPlace · title)) _ _ h ?_
    rintro bs hbs ⟨d, index⟩ -
    exact hasPlace_bucketsAfter hbs _ d index
  · exact h

/-- A definition that asks its service has a place reserved for its category. -/
theorem hasPlace_of_requestFor (hwaits : ctx.config.showWhenSearching = true) {d : Definition}
    {index : Nat} (hr : ctx.requestFor search operator g s d index = some r) (bs : Buckets)
    (category : Category) :
    (ctx.bucketsAfter search s category bs d index).HasPlace category.title := by
  obtain ⟨service, hservice, -⟩ := Option.map_eq_some_iff.mp hr
  unfold bucketsAfter
  split
  · unfold Buckets.HasPlace
    rw [Buckets.bucket?_merge, if_pos rfl]
    rfl
  · rw [hwaits, hservice, if_pos (by rfl)]
    exact Buckets.hasPlace_reserve bs category

/-- **Whatever a search asks for, there is a place for the answer**, if lookups are waited for in
view. -/
theorem exists_place_find (hwaits : ctx.config.showWhenSearching = true)
    (hr : r ∈ (ctx.find search operator g).pending) :
    ∃ s ∈ ctx.config.sources, s.name = r.source ∧
      (ctx.find search operator g).buckets.HasPlace s.title := by
  by_cases hshort : ctx.tooShort search
  · rw [find_of_tooShort hshort] at hr
    contradiction
  · rw [find_eq hshort] at hr ⊢
    obtain ⟨s, hs, hfor⟩ := List.mem_flatMap.mp hr
    obtain ⟨heligible, d, index, hd, hrequest⟩ := mem_requestsFor hfor
    obtain ⟨position, hplace⟩ := List.mem_iff_getElem?.mp hs
    refine ⟨s, hs, (of_requestFor hrequest).1.symm, ?_⟩
    refine foldl_of_mem (P := (Buckets.HasPlace · s.title))
      (List.mem_zipIdx_iff_getElem?.mpr hplace : (s, position) ∈ _) ?_ ?_ _
    · intro bs
      show (ctx.bucketsAfterSource search bs s position).HasPlace s.title
      unfold bucketsAfterSource
      rw [if_pos heligible]
      refine foldl_of_mem (P := (Buckets.HasPlace · s.title))
        (List.mem_zipIdx_iff_getElem?.mpr hd : (d, index) ∈ _) ?_ ?_ _
      · exact fun bs => hasPlace_of_requestFor hwaits hrequest bs (.ofSource s position)
      · rintro bs ⟨d', index'⟩ hbs
        exact hasPlace_bucketsAfter hbs _ d' index'
    · rintro bs ⟨s', position'⟩ hbs
      exact hasPlace_bucketsAfterSource hbs s' position'

end SearchContext

end QueryBar
