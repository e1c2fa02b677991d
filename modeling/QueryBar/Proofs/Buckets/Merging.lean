/-
Buckets do not depend on the order in which they are filled.

A search files suggestions under categories, and keeps places for categories whose
suggestions are still to come.  `Buckets.reference` is what all of that has to come to,
with nothing filed one after the other: the categories by rank, and in each of them the
batches by origin.  It is the outcome wherever a title goes with one rank, a rank with one
title, and each definition delivers once to a category (`Filing.Consistent`).

What makes it true is that a list of buckets is settled by what is in it.  `Reflects` says
which categories there are and which batches each of them has, and that both stand in
order.  One filing keeps that (`Reflects.file`), it does not say in which order anything
was filed, and no two lists of buckets reflect the same filings (`Reflects.unique`).

Every batch is cut when it is filed, and what is shown is worked out of the batches alone,
so that no cut takes away what a later one would have kept.
-/
import Mathlib.Data.List.Dedup
import Mathlib.Data.List.Induction
import QueryBar.Proofs.Buckets.Held
import QueryBar.Proofs.Buckets.Order
import QueryBar.Proofs.Search.Specification

namespace QueryBar

/-! ### What is filed -/

/-- What one definition found for a category, and how many suggestions of it count at most. -/
structure Delivery where
  category : Category
  origin : Nat
  options : List Suggestion
  limit : Option Nat
  deriving DecidableEq

/-- What counts of a delivery: the first suggestions with different values, up to the limit. -/
def Delivery.batch (d : Delivery) : Contribution :=
  ⟨d.origin, capped d.limit (firstOfEach d.options), d.limit⟩

/-- What is done to the buckets: something is delivered, or a place is kept. -/
inductive Filing where
  | deliver (d : Delivery)
  | reserve (c : Category)
  deriving DecidableEq

namespace Filing

def category : Filing → Category
  | deliver d => d.category
  | reserve c => c

def delivery? : Filing → Option Delivery
  | deliver d => some d
  | reserve _ => none

/-- What is delivered, in the order in which it arrives. -/
def deliveries (calls : List Filing) : List Delivery := calls.filterMap delivery?

/-- Titles and ranks go together, and each definition delivers to a category once. -/
structure Consistent (calls : List Filing) : Prop where
  ranks : ∀ x ∈ calls, ∀ y ∈ calls,
    x.category.title = y.category.title ↔ x.category.rank = y.category.rank
  once : ((deliveries calls).map fun d => (d.category.title, d.origin)).Nodup

variable {calls calls' : List Filing} {d : Delivery}

theorem mem_deliveries : d ∈ deliveries calls ↔ deliver d ∈ calls := by
  unfold deliveries
  rw [List.mem_filterMap]
  constructor
  · rintro ⟨x, hx, hd⟩
    cases x with
    | deliver d' => exact Option.some.inj hd ▸ hx
    | reserve c => contradiction
  · intro h
    exact ⟨deliver d, h, rfl⟩

theorem Consistent.eq_of_title (h : Consistent calls) {x y : Filing} (hx : x ∈ calls)
    (hy : y ∈ calls) (htitle : x.category.title = y.category.title) : x.category = y.category := by
  have hrank := (h.ranks x hx y hy).mp htitle
  cases hcx : x.category
  cases hcy : y.category
  simp_all

theorem Consistent.eq_of_rank (h : Consistent calls) {x y : Filing} (hx : x ∈ calls)
    (hy : y ∈ calls) (hrank : x.category.rank = y.category.rank) : x.category = y.category :=
  h.eq_of_title hx hy ((h.ranks x hx y hy).mpr hrank)

/-- The order of the filings does not count. -/
theorem Consistent.perm (h : Consistent calls) (hperm : calls'.Perm calls) : Consistent calls' where
  ranks x hx y hy := h.ranks x (hperm.mem_iff.mp hx) y (hperm.mem_iff.mp hy)
  once := (((hperm.filterMap delivery?).map _).nodup_iff).mpr h.once

theorem Consistent.of_append {more : List Filing} (h : Consistent (calls ++ more)) :
    Consistent calls where
  ranks x hx y hy := h.ranks x (List.mem_append_left _ hx) y (List.mem_append_left _ hy)
  once := by
    have honce := h.once
    unfold deliveries at honce
    rw [List.filterMap_append, List.map_append] at honce
    exact (List.nodup_append.mp honce).1

/-- What a delivery brings to its category is not of a definition that has delivered before. -/
theorem Consistent.fresh {d' : Delivery} (h : Consistent (calls ++ [deliver d]))
    (hd' : d' ∈ deliveries calls) (htitle : d'.category.title = d.category.title) :
    d'.origin ≠ d.origin := by
  have honce := h.once
  unfold deliveries at honce
  rw [List.filterMap_append, List.map_append] at honce
  have hapart := (List.nodup_append.mp honce).2.2 _ (List.mem_map_of_mem hd') _
    (List.mem_map_of_mem (List.mem_singleton_self d))
  exact fun horigin => hapart (Prod.ext htitle horigin)

end Filing

namespace Bucket

/-- The bucket shows its batches one after the other, each value once, cut to the largest limit
unless some batch has none. -/
structure CutToLargest (b : Bucket) : Prop where
  uncut : (∃ c ∈ b.contributions, c.limit = none) →
    b.options = firstOfEach (b.contributions.flatMap (·.options))
  cut : ∀ n, (∃ c ∈ b.contributions, c.limit = some n) →
    (∀ c ∈ b.contributions, ∃ m, m ≤ n ∧ c.limit = some m) →
    b.options = (firstOfEach (b.contributions.flatMap (·.options))).take n
  idle : b.contributions = [] → b.options = []

theorem cutToLargest (b : Bucket) : b.CutToLargest := by
  have hoptions : b.options = capped (Contribution.cap b.contributions)
      (firstOfEach (b.contributions.flatMap (·.options))) := by
    rw [options_eq, Suggestion.joinDistinct_nil_left]
    rfl
  refine ⟨?_, ?_, ?_⟩
  · intro ⟨c, hc, hlimit⟩
    have hany : b.contributions.any (·.limit.isNone) = true :=
      List.any_eq_true.mpr ⟨c, hc, by rw [hlimit]; rfl⟩
    rw [hoptions, Contribution.cap, if_pos hany]
    rfl
  · intro n ⟨c, hc, hlimit⟩ hall
    have hnone : ¬ b.contributions.any (·.limit.isNone) = true := by
      intro hany
      obtain ⟨e, he, hisNone⟩ := List.any_eq_true.mp hany
      obtain ⟨m, -, hm⟩ := hall e he
      rw [hm] at hisNone
      contradiction
    have hmax : (b.contributions.filterMap (·.limit)).max? = some n := by
      rw [List.max?_eq_some_iff]
      refine ⟨List.mem_filterMap.mpr ⟨c, hc, hlimit⟩, ?_⟩
      intro m hm
      obtain ⟨e, he, hem⟩ := List.mem_filterMap.mp hm
      obtain ⟨m', hle, hm'⟩ := hall e he
      rw [hem] at hm'
      exact Option.some.inj hm' ▸ hle
    rw [hoptions, Contribution.cap, if_neg hnone, hmax]
    rfl
  · intro hnil
    rw [hoptions, hnil]
    rfl

end Bucket

namespace Buckets

open Filing

/-! ### Filing, and what it has to come to -/

/-- The buckets after one filing. -/
def file (bs : Buckets) : Filing → Buckets
  | .deliver d => bs.merge d.category d.origin d.options d.limit
  | .reserve c => bs.reserve c

/-- The buckets after all the filings, one after the other. -/
def filed (calls : List Filing) : Buckets := calls.foldl file []

/-- What counts under a title, by origin. -/
def batches (calls : List Filing) (title : String) : List Contribution :=
  (((deliveries calls).filter (·.category.title == title)).map (·.batch)).mergeSort
    fun c d => c.origin ≤ d.origin

/-- All categories by rank, each with its batches by origin. -/
def reference (calls : List Filing) : Buckets :=
  ((calls.map (·.category)).dedup.mergeSort fun a b => !b.rank.outranks a.rank).map
    fun c => ⟨c.title, c.rank, batches calls c.title⟩

/-! ### Buckets that reflect what was filed -/

/-- The categories are the ones something was filed under, their contributions what was delivered
to them, and both stand in order. -/
structure Reflects (calls : List Filing) (bs : Buckets) : Prop where
  ranked : bs.Pairwise fun a b => a.rank.outranks b.rank = true
  categories : ∀ c, (∃ b ∈ bs, b.category = c) ↔ ∃ x ∈ calls, x.category = c
  ascending : ∀ b ∈ bs, b.contributions.Pairwise (·.origin < ·.origin)
  delivered : ∀ b ∈ bs, ∀ c, c ∈ b.contributions ↔
    ∃ d ∈ deliveries calls, d.category.title = b.title ∧ d.batch = c

variable {calls calls' : List Filing} {bs bs' : Buckets} {b : Bucket} {x : Filing}

theorem reflects_nil : Reflects [] [] where
  ranked := List.Pairwise.nil
  categories := by simp
  ascending := by simp
  delivered := by simp

/-- In which order things were filed does not show. -/
theorem Reflects.perm (h : Reflects calls bs) (hperm : calls'.Perm calls) : Reflects calls' bs where
  ranked := h.ranked
  categories := by
    intro c
    rw [h.categories c]
    simp [hperm.mem_iff]
  ascending := h.ascending
  delivered := by
    intro b hb c
    rw [h.delivered b hb c]
    simp [mem_deliveries, hperm.mem_iff]

private theorem Reflects.subset (h : Reflects calls bs) (h' : Reflects calls bs') (hb : b ∈ bs) :
    b ∈ bs' := by
  obtain ⟨b', hb', hcategory⟩ :=
    (h'.categories b.category).mpr ((h.categories b.category).mp ⟨b, hb, rfl⟩)
  have htitle : b'.title = b.title := congrArg Category.title hcategory
  have hrank : b'.rank = b.rank := congrArg Category.rank hcategory
  have hmem : ∀ c, c ∈ b'.contributions ↔ c ∈ b.contributions := by
    intro c
    rw [h'.delivered b' hb' c, h.delivered b hb c, htitle]
  have hcontributions : b'.contributions = b.contributions :=
    eq_of_strict (fun _ _ => Nat.lt_asymm) (h'.ascending b' hb') (h.ascending b hb) hmem
  have hbb' : b' = b := by
    cases b'
    cases b
    simp_all
  exact hbb' ▸ hb'

/-- **What was filed settles the buckets that reflect it.** -/
theorem Reflects.unique (h : Reflects calls bs) (h' : Reflects calls bs') : bs = bs' := by
  refine eq_of_strict (fun _ _ => Rank.outranks_asymm) h.ranked h'.ranked ?_
  intro b
  exact ⟨h.subset h', h'.subset h⟩

/-! ### One filing -/

/-- A bucket goes with the filings under its category. -/
theorem Reflects.exists_category (h : Reflects calls bs) (hb : b ∈ bs) :
    ∃ y ∈ calls, y.category = b.category := (h.categories b.category).mp ⟨b, hb, rfl⟩

/-- Among consistent filings the category of a bucket is settled by its title. -/
theorem Reflects.category_of_title (h : Reflects calls bs) (hcalls : Consistent (calls ++ [x]))
    (hb : b ∈ bs) (htitle : b.title = x.category.title) : b.category = x.category := by
  obtain ⟨y, hy, hcategory⟩ := h.exists_category hb
  rw [← hcategory]
  exact hcalls.eq_of_title (List.mem_append_left _ hy) (by simp)
    (by rw [hcategory]; exact htitle)

/-- Titles occur once. -/
theorem Reflects.titles (h : Reflects calls bs) (hcalls : Consistent calls) :
    (bs.map (·.title)).Nodup := by
  refine List.pairwise_map.mpr (h.ranked.imp_of_mem ?_)
  intro a b ha hb hab htitle
  obtain ⟨x, hx, hxa⟩ := h.exists_category ha
  obtain ⟨y, hy, hyb⟩ := h.exists_category hb
  have hcategory := hcalls.eq_of_title hx hy (by rw [hxa, hyb]; exact htitle)
  rw [hxa, hyb] at hcategory
  have hrank : a.rank = b.rank := congrArg Category.rank hcategory
  rw [hrank] at hab
  exact Rank.outranks_irrefl _ hab

/-- What was filed last is delivered, beside what was delivered before. -/
theorem mem_deliveries_concat {d : Delivery} :
    d ∈ deliveries (calls ++ [x]) ↔ x = .deliver d ∨ d ∈ deliveries calls := by
  rw [mem_deliveries, mem_deliveries, List.mem_append, List.mem_singleton]
  tauto

/-- A bucket of a new category is put beside the others. -/
theorem Reflects.insert (h : Reflects calls bs) (hcalls : Consistent (calls ++ [x]))
    (hnew : ∀ a ∈ bs, a.title ≠ x.category.title) (hb : b.category = x.category)
    (hascending : b.contributions.Pairwise (·.origin < ·.origin))
    (hdelivered : ∀ c, c ∈ b.contributions ↔ ∃ d, x = .deliver d ∧ d.batch = c) :
    Reflects (calls ++ [x]) (insert b bs) := by
  have htitle : b.title = x.category.title := congrArg Category.title hb
  have hrank : b.rank = x.category.rank := congrArg Category.rank hb
  refine ⟨?_, ?_, ?_, ?_⟩
  · refine pairwise_insert ?_ ?_ h.ranked
    · intro a _ hout
      exact ⟨hout, fun e => Rank.outranks_trans hout⟩
    · intro a ha hout
      obtain ⟨y, hy, hcategory⟩ := h.exists_category ha
      have hne : a.rank ≠ b.rank := by
        intro heq
        have hsame : y.category = x.category :=
          hcalls.eq_of_rank (List.mem_append_left _ hy) (by simp)
            (by rw [hcategory, ← hrank]; exact heq)
        rw [hcategory] at hsame
        exact hnew a ha (congrArg Category.title hsame)
      exact (Rank.outranks_of_ne hne).resolve_right hout
  · intro c
    have hold := h.categories c
    simp only [mem_insert, List.mem_append, List.mem_singleton, or_and_right, exists_or,
      exists_eq_left, hold, hb]
    exact or_comm
  · intro a ha
    rcases mem_insert.mp ha with rfl | ha
    · exact hascending
    · exact h.ascending a ha
  · intro a ha c
    simp only [mem_deliveries_concat, or_and_right, exists_or]
    rcases mem_insert.mp ha with rfl | ha
    · rw [hdelivered c]
      constructor
      · intro ⟨d, hd, hbatch⟩
        refine Or.inl ⟨d, hd, ?_, hbatch⟩
        rw [htitle, hd]
        rfl
      · rintro (⟨d, hd, -, hbatch⟩ | ⟨d, hd, hunder, -⟩)
        · exact ⟨d, hd, hbatch⟩
        · -- Nothing was delivered to a category that has no bucket.
          obtain ⟨e, he, hcategory⟩ :=
            (h.categories d.category).mpr ⟨.deliver d, mem_deliveries.mp hd, rfl⟩
          have het : e.title = d.category.title := congrArg Category.title hcategory
          exact absurd (het.trans (hunder.trans htitle)) (hnew e he)
    · rw [h.delivered a ha c]
      refine (or_iff_right ?_).symm
      rintro ⟨d, rfl, hunder, -⟩
      exact hnew a ha hunder.symm

/-- A filing under a category that is there already adds no category. -/
theorem Reflects.categories_of_known (h : Reflects calls bs) (hcalls : Consistent (calls ++ [x]))
    (hknown : ∃ a ∈ bs, a.title = x.category.title) (c : Category) :
    (∃ b ∈ bs, b.category = c) ↔ ∃ y ∈ calls ++ [x], y.category = c := by
  rw [h.categories c]
  constructor
  · intro ⟨y, hy, hc⟩
    exact ⟨y, List.mem_append_left _ hy, hc⟩
  · intro ⟨y, hy, hc⟩
    rcases List.mem_append.mp hy with hold | hnew
    · exact ⟨y, hold, hc⟩
    · obtain ⟨a, ha, htitle⟩ := hknown
      obtain ⟨z, hz, hza⟩ := h.exists_category ha
      rw [List.mem_singleton.mp hnew] at hc
      exact ⟨z, hz, hza.trans ((h.category_of_title hcalls ha htitle).trans hc)⟩

/-- A definition that has nothing in a category yet contributes what counts of its delivery. -/
theorem after_eq_batch (d : Delivery) :
    Contribution.after [] d.origin d.options d.limit = d.batch := by
  unfold Contribution.after
  rw [Suggestion.joinDistinct_nil_left]
  rfl

/-- What is delivered to a category that is there changes its bucket only. -/
theorem Reflects.contribute {d : Delivery} (h : Reflects calls bs)
    (hcalls : Consistent (calls ++ [.deliver d])) (hknown : ∃ a ∈ bs, a.title = d.category.title) :
    Reflects (calls ++ [.deliver d])
      (bs.modify d.category.title (·.contribute d.origin d.options d.limit)) := by
  have htitles := h.titles hcalls.of_append
  have hsame := map_category_modify
    (fun b => Bucket.category_contribute b d.origin d.options d.limit) bs d.category.title
  refine ⟨?_, ?_, ?_, ?_⟩
  · have hranked : (bs.map (·.category)).Pairwise fun a b => a.rank.outranks b.rank = true :=
      List.pairwise_map.mpr h.ranked
    rw [← hsame] at hranked
    exact List.pairwise_map.mp hranked
  · intro c
    have hmem : ∀ bs : Buckets, (∃ b ∈ bs, b.category = c) ↔ c ∈ bs.map (·.category) :=
      fun _ => List.mem_map.symm
    rw [hmem, hsame, ← hmem]
    exact h.categories_of_known hcalls hknown c
  · intro b hb
    rcases (mem_modify_iff htitles).mp hb with ⟨hold, -⟩ | ⟨a, ha, -, rfl⟩
    · exact h.ascending b hold
    · exact Contribution.ascending_insert (h.ascending a ha)
  · intro b hb c
    simp only [mem_deliveries_concat, Filing.deliver.injEq, or_and_right, exists_or,
      exists_eq_left']
    rcases (mem_modify_iff htitles).mp hb with ⟨hold, hne⟩ | ⟨a, ha, htitle, rfl⟩
    · rw [h.delivered b hold c]
      exact (or_iff_right fun hnew => hne hnew.1.symm).symm
    · have hfresh : ∀ e ∈ a.contributions, e.origin ≠ d.origin := by
        intro e he
        obtain ⟨d', hd', hunder, rfl⟩ := (h.delivered a ha e).mp he
        exact hcalls.fresh hd' (hunder.trans htitle)
      show c ∈ Contribution.insert _ _ _ _ ↔ _
      rw [Contribution.mem_insert_of_fresh hfresh, h.delivered a ha c, after_eq_batch]
      have hunder : d.category.title = a.title := htitle.symm
      simp [hunder, eq_comm]

/-- **Buckets that reflect what was filed do so after one more filing.** -/
theorem Reflects.file (h : Reflects calls bs) (hcalls : Consistent (calls ++ [x])) :
    Reflects (calls ++ [x]) (bs.file x) := by
  by_cases hknown : ∃ a ∈ bs, a.title = x.category.title
  · have hfound : (bs.bucket? x.category.title).isSome = true := by
      rw [Option.isSome_iff_ne_none, ne_eq, bucket?_eq_none]
      obtain ⟨a, ha, htitle⟩ := hknown
      exact fun hnone => hnone a ha htitle
    cases x with
    | deliver d =>
        have hfile : bs.file (.deliver d) = _ := if_pos hfound
        rw [hfile]
        exact h.contribute hcalls hknown
    | reserve c =>
        have hfile : bs.file (.reserve c) = bs := if_pos hfound
        rw [hfile]
        refine ⟨h.ranked, h.categories_of_known hcalls hknown, h.ascending, ?_⟩
        intro b hb c'
        simp [mem_deliveries_concat, h.delivered b hb c']
  · have hfound : ¬ (bs.bucket? x.category.title).isSome = true := by
      rw [Option.not_isSome_iff_eq_none, bucket?_eq_none]
      exact fun a ha htitle => hknown ⟨a, ha, htitle⟩
    have hnew : ∀ a ∈ bs, a.title ≠ x.category.title := fun a ha htitle => hknown ⟨a, ha, htitle⟩
    cases x with
    | deliver d =>
        have hfile : bs.file (.deliver d) = _ := if_neg hfound
        rw [hfile]
        have hcontributions : ((Bucket.empty d.category).contribute d.origin d.options
            d.limit).contributions = [d.batch] :=
          congrArg (fun c => [c]) (after_eq_batch d)
        refine h.insert hcalls hnew rfl ?_ ?_
        · rw [hcontributions]
          exact List.pairwise_singleton ..
        · intro c
          rw [hcontributions]
          simp [eq_comm]
    | reserve c =>
        have hfile : bs.file (.reserve c) = _ := if_neg hfound
        rw [hfile]
        refine h.insert hcalls hnew rfl List.Pairwise.nil ?_
        simp [Bucket.empty]

/-- **Filing one after the other comes to buckets that reflect what was filed.** -/
theorem reflects_filed (hcalls : Consistent calls) : Reflects calls (filed calls) := by
  induction calls using List.reverseRecOn with
  | nil => exact reflects_nil
  | append_singleton calls x ih =>
      have hfiled : filed (calls ++ [x]) = (filed calls).file x := List.foldl_concat ..
      rw [hfiled]
      exact (ih hcalls.of_append).file hcalls

/-! ### The reference -/

theorem mem_batches {title : String} {c : Contribution} :
    c ∈ batches calls title ↔
      ∃ d ∈ deliveries calls, d.category.title = title ∧ d.batch = c := by
  unfold batches
  rw [List.mem_mergeSort, List.mem_map]
  simp only [List.mem_filter, beq_iff_eq, and_assoc]

theorem ascending_batches (hcalls : Consistent calls) (title : String) :
    (batches calls title).Pairwise (·.origin < ·.origin) := by
  have hsorted : (batches calls title).Pairwise fun c d => decide (c.origin ≤ d.origin) = true := by
    refine List.pairwise_mergeSort ?_ ?_ _
    · intro c d e hcd hde
      exact decide_eq_true (Nat.le_trans (of_decide_eq_true hcd) (of_decide_eq_true hde))
    · intro c d
      simpa using Nat.le_total c.origin d.origin
  have hdistinct : (batches calls title).Pairwise (·.origin ≠ ·.origin) := by
    refine ((List.mergeSort_perm _ _).pairwise_iff fun h => h.symm).mpr ?_
    rw [List.pairwise_map, List.pairwise_filter]
    refine (List.pairwise_map.mp hcalls.once).imp ?_
    intro d e hne hd he horigin
    exact hne (Prod.ext ((beq_iff_eq.mp hd).trans (beq_iff_eq.mp he).symm) horigin)
  refine (hsorted.and hdistinct).imp ?_
  intro c d h
  exact Nat.lt_of_le_of_ne (of_decide_eq_true h.1) h.2

theorem mem_reference :
    b ∈ reference calls ↔
      ∃ x ∈ calls, b = ⟨x.category.title, x.category.rank, batches calls x.category.title⟩ := by
  unfold reference
  rw [List.mem_map]
  simp only [List.mem_mergeSort, List.mem_dedup, List.mem_map]
  constructor
  · rintro ⟨c, ⟨x, hx, rfl⟩, rfl⟩
    exact ⟨x, hx, rfl⟩
  · rintro ⟨x, hx, rfl⟩
    exact ⟨x.category, ⟨x, hx, rfl⟩, rfl⟩

theorem ranked_reference (hcalls : Consistent calls) :
    (reference calls).Pairwise fun a b => a.rank.outranks b.rank = true := by
  unfold reference
  rw [List.pairwise_map]
  set categories := (calls.map (·.category)).dedup with hcategories
  have hsorted : (categories.mergeSort fun a b => !b.rank.outranks a.rank).Pairwise
      fun a b => (!b.rank.outranks a.rank) = true := by
    refine List.pairwise_mergeSort ?_ ?_ _
    · intro a b c hab hbc
      rw [Bool.not_eq_true', Bool.eq_false_iff] at hab hbc ⊢
      exact Rank.not_outranks_trans hbc hab
    · intro a b
      by_cases hout : b.rank.outranks a.rank = true
      · simp [hout, Rank.outranks_asymm hout]
      · simp [hout]
  have hnodup : (categories.mergeSort fun a b => !b.rank.outranks a.rank).Nodup :=
    (List.mergeSort_perm _ _).nodup_iff.mpr (List.nodup_dedup _)
  refine (hsorted.and hnodup).imp_of_mem ?_
  intro a b ha hb h
  rw [List.mem_mergeSort, hcategories, List.mem_dedup, List.mem_map] at ha hb
  obtain ⟨x, hx, rfl⟩ := ha
  obtain ⟨y, hy, rfl⟩ := hb
  have hne : x.category.rank ≠ y.category.rank := fun hrank => h.2 (hcalls.eq_of_rank hx hy hrank)
  exact (Rank.outranks_of_ne hne).resolve_right (by simpa using h.1)

theorem reflects_reference (hcalls : Consistent calls) : Reflects calls (reference calls) where
  ranked := ranked_reference hcalls
  categories := by
    intro c
    constructor
    · rintro ⟨b, hb, rfl⟩
      obtain ⟨x, hx, rfl⟩ := mem_reference.mp hb
      exact ⟨x, hx, rfl⟩
    · rintro ⟨x, hx, rfl⟩
      exact ⟨_, mem_reference.mpr ⟨x, hx, rfl⟩, rfl⟩
  ascending := by
    intro b hb
    obtain ⟨x, hx, rfl⟩ := mem_reference.mp hb
    exact ascending_batches hcalls _
  delivered := by
    intro b hb c
    obtain ⟨x, hx, rfl⟩ := mem_reference.mp hb
    exact mem_batches

/-- **However consistent filings are ordered, they come to the same buckets: the categories by
rank, in each of them what counts of its deliveries by origin, and of that each value once, cut to
the largest limit unless some delivery has none.** -/
theorem filed_in_any_order {calls : List Filing} (hcalls : Consistent calls) :
    (∀ calls', calls'.Perm calls → filed calls' = filed calls) ∧
    filed calls = reference calls ∧
    (filed calls).Pairwise (fun a b => a.rank.outranks b.rank = true) ∧
    ∀ b ∈ filed calls, b.contributions.Pairwise (·.origin < ·.origin) ∧ b.CutToLargest := by
  have hreflects := reflects_filed hcalls
  refine ⟨?_, hreflects.unique (reflects_reference hcalls), hreflects.ranked, ?_⟩
  · intro calls' hperm
    exact (reflects_filed (hcalls.perm hperm)).unique (hreflects.perm hperm)
  · intro b hb
    exact ⟨hreflects.ascending b hb, b.cutToLargest⟩

/-- Two definitions deliver to one category and one of them to another, whose place is kept. -/
def twoCategories : List Filing :=
  let colours : Category := ⟨"Colours", 0, 0⟩
  let sizes : Category := ⟨"Sizes", 1, 1⟩
  let texts (ts : List String) : List Suggestion := ts.map fun t => ⟨"source", .text t, t⟩
  [.deliver ⟨colours, 1, texts ["green", "red"], some 2⟩, .reserve sizes,
    .deliver ⟨colours, 0, texts ["red", "red", "blue", "grey"], some 3⟩,
    .deliver ⟨sizes, 0, texts ["small"], none⟩]

theorem filed_in_any_order_twoCategories :
    Consistent twoCategories ∧
      filed twoCategories.reverse = filed twoCategories ∧
      filed twoCategories = reference twoCategories ∧
      (filed twoCategories).map (fun b => (b.title, b.options.map (·.text)))
        = [("Sizes", ["small"]), ("Colours", ["red", "blue", "grey"])] := by
  have hcalls : Consistent twoCategories := ⟨by decide, by decide⟩
  obtain ⟨horder, hreference, -, -⟩ := filed_in_any_order hcalls
  exact ⟨hcalls, horder _ (List.reverse_perm _), hreference, by decide⟩

end Buckets

end QueryBar
