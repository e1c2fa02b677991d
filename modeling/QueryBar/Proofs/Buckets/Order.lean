/-
Where buckets stand.

Ranks are compared by precedence and then by position, so of two different ranks one
outranks the other, and nothing outranks the rank of the function names.  A source can
have that very rank, though: the greatest precedence at position nought.  Function names
still come first, because they are put in before any source is asked, and that is why
`Precedes` names them apart.

`Ordered` is what every list of buckets a search produces or an answer changes satisfies:
titles occur once, every category is the one of the function names or that of some
source, and each precedes all those after it.  Only the categories count for it, so what
is done to the contributions of a bucket leaves the order alone.  An ordered list is
settled by its view (`Ordered.eq_of_bucket?`).
-/
import Mathlib.Data.List.Sort
import QueryBar.Config
import QueryBar.Proofs.Buckets.View

namespace QueryBar

/-- Two lists that stand in an order without ties are the same if they have the same members. -/
theorem eq_of_strict {α : Type} {R : α → α → Prop} (hasymm : ∀ a b, R a b → ¬ R b a)
    {xs ys : List α} (hxs : xs.Pairwise R) (hys : ys.Pairwise R) (hmem : ∀ a, a ∈ xs ↔ a ∈ ys) :
    xs = ys := by
  have : Std.Irrefl R := ⟨fun a h => hasymm a a h h⟩
  have : Std.Antisymm R := ⟨fun a b h h' => absurd h' (hasymm a b h)⟩
  exact hxs.eq_of_mem_iff hys hmem

/-! ### Ranks -/

namespace Rank

variable {r s t : Rank}

theorem outranks_iff : r.outranks s = true ↔
    s.precedence < r.precedence ∨ r.precedence = s.precedence ∧ r.position < s.position := by
  simp [outranks]

theorem outranks_irrefl (r : Rank) : ¬ r.outranks r = true := by
  simp [outranks_iff]

theorem outranks_trans (h : r.outranks s = true) (h' : s.outranks t = true) :
    r.outranks t = true := by
  rw [outranks_iff] at *
  rcases h with h | ⟨heq, h⟩ <;> rcases h' with h' | ⟨heq', h'⟩
  · exact Or.inl (Int64.lt_trans h' h)
  · exact Or.inl (heq' ▸ h)
  · exact Or.inl (heq ▸ h')
  · exact Or.inr ⟨heq.trans heq', Nat.lt_trans h h'⟩

theorem outranks_asymm (h : r.outranks s = true) : ¬ s.outranks r = true :=
  fun h' => outranks_irrefl r (outranks_trans h h')

theorem outranks_of_ne (h : r ≠ s) : r.outranks s = true ∨ s.outranks r = true := by
  obtain ⟨p, i⟩ := r
  obtain ⟨q, j⟩ := s
  rw [outranks_iff, outranks_iff]
  by_cases hp : p = q
  · subst hp
    have hi : i ≠ j := fun hij => h (by rw [hij])
    rcases Nat.lt_or_gt_of_ne hi with hlt | hgt
    · exact Or.inl (Or.inr ⟨rfl, hlt⟩)
    · exact Or.inr (Or.inr ⟨rfl, hgt⟩)
  · rcases Int64.lt_or_lt_of_ne hp with hlt | hgt
    · exact Or.inr (Or.inl hlt)
    · exact Or.inl (Or.inl hgt)

/-- Not to come before something is transitive too. -/
theorem not_outranks_trans (h : ¬ r.outranks s = true) (h' : ¬ s.outranks t = true) :
    ¬ r.outranks t = true := by
  intro hrt
  by_cases hst : s = t
  · exact h (hst ▸ hrt)
  · exact h (outranks_trans hrt ((outranks_of_ne hst).resolve_left h'))

theorem not_outranks_functions (r : Rank) : ¬ r.outranks .functions = true := by
  rw [outranks_iff]
  rintro (h | ⟨-, h⟩)
  · have hle := Int64.toInt_le r.precedence
    rw [Int64.lt_iff_toInt_lt] at h
    exact absurd h (Int.not_lt.mpr hle)
  · exact absurd h (Nat.not_lt_zero _)

end Rank

/-! ### The order of two categories -/

namespace Category

/-- The category is the one of a source of the configuration. -/
def BelongsTo (a : Category) (c : Config) : Prop :=
  ∃ position s, c.sources[position]? = some s ∧ a = ofSource s position

/-- The first category comes before the second. -/
def Precedes (a b : Category) : Prop := a.rank.outranks b.rank = true ∨ a = functions

variable {a b d : Category} {c : Config}

/-- Two categories of sources that have one rank are the same. -/
theorem BelongsTo.eq_of_rank (ha : a.BelongsTo c) (hb : b.BelongsTo c) (h : a.rank = b.rank) :
    a = b := by
  obtain ⟨i, s, hs, rfl⟩ := ha
  obtain ⟨j, t, ht, rfl⟩ := hb
  have hij : i = j := congrArg Rank.position h
  subst hij
  rw [hs] at ht
  rw [Option.some.inj ht]

theorem Precedes.antisymm (hab : a.Precedes b) (hba : b.Precedes a) : a = b := by
  rcases hab with hab | rfl <;> rcases hba with hba | rfl
  · exact absurd hba (Rank.outranks_asymm hab)
  · exact absurd hab (Rank.not_outranks_functions _)
  · exact absurd hba (Rank.not_outranks_functions _)
  · rfl

/-- What is outranked by a category has nothing after it that the category does not precede. -/
theorem Precedes.of_outranks (h : d.rank.outranks a.rank = true) (hab : a.Precedes b) :
    d.Precedes b := by
  rcases hab with hab | rfl
  · exact Or.inl (Rank.outranks_trans h hab)
  · exact absurd h (Rank.not_outranks_functions _)

end Category

namespace Bucket

/-- What the bucket belongs to. -/
def category (b : Bucket) : Category := ⟨b.title, b.rank⟩

@[simp] theorem category_contribute (b : Bucket) (origin : Nat) (options : List Suggestion)
    (limit : Option Nat) : (b.contribute origin options limit).category = b.category := rfl

end Bucket

namespace Buckets

/-! ### Ordered lists of buckets -/

/-- Titles occur once, every category is that of the function names or of a source, and each
precedes those after it. -/
structure Ordered (c : Config) (bs : Buckets) : Prop where
  titles : (bs.map (·.title)).Nodup
  owned : ∀ b ∈ bs, b.category = .functions ∨ b.category.BelongsTo c
  ranked : bs.Pairwise fun a b => a.category.Precedes b.category

variable {c : Config} {bs bs' : Buckets} {b : Bucket} {category : Category} {title : String}

theorem ordered_nil : Ordered c [] := ⟨by simp, by simp, List.Pairwise.nil⟩

/-- Ordered lists of the same buckets are the same. -/
theorem Ordered.eq_of_mem (h : Ordered c bs) (h' : Ordered c bs') (hmem : ∀ b, b ∈ bs ↔ b ∈ bs') :
    bs = bs' := by
  have hperm : bs.Perm bs' :=
    (List.perm_ext_iff_of_nodup h.titles.of_map h'.titles.of_map).mpr hmem
  refine hperm.eq_of_pairwise ?_ h.ranked h'.ranked
  intro a b ha hb hab hba
  have htitle : a.title = b.title := congrArg Category.title (hab.antisymm hba)
  have hfound := bucket?_title h.titles ((hmem b).mpr hb)
  rw [← htitle, bucket?_title h.titles ha] at hfound
  exact Option.some.inj hfound

/-- **The titles and what stands under them settle an ordered list of buckets.** -/
theorem Ordered.eq_of_bucket? (h : Ordered c bs) (h' : Ordered c bs')
    (hview : ∀ title, bs.bucket? title = bs'.bucket? title) : bs = bs' := by
  refine h.eq_of_mem h' ?_
  intro b
  rw [mem_iff_bucket? h.titles, mem_iff_bucket? h'.titles, hview]

/-- Titles go with the categories. -/
theorem map_title_of_category (heq : bs'.map (·.category) = bs.map (·.category)) :
    bs'.map (·.title) = bs.map (·.title) := by
  have htitles := congrArg (List.map Category.title) heq
  rw [List.map_map, List.map_map] at htitles
  exact htitles

/-- Only the categories count. -/
theorem Ordered.congr (h : Ordered c bs) (heq : bs'.map (·.category) = bs.map (·.category)) :
    Ordered c bs' := by
  refine ⟨?_, ?_, ?_⟩
  · exact map_title_of_category heq ▸ h.titles
  · intro b hb
    have hmem : b.category ∈ bs.map (·.category) := heq ▸ List.mem_map_of_mem hb
    obtain ⟨a, ha, hab⟩ := List.mem_map.mp hmem
    exact hab ▸ h.owned a ha
  · have hranked := List.pairwise_map.mpr h.ranked
    rw [← heq] at hranked
    exact List.pairwise_map.mp hranked

/-- Of the configuration only the categories of its sources count. -/
theorem Ordered.of_belongsTo {c' : Config} (h : Ordered c bs)
    (hc : ∀ a : Category, a.BelongsTo c → a.BelongsTo c') : Ordered c' bs :=
  ⟨h.titles, fun b hb => (h.owned b hb).imp_right (hc b.category), h.ranked⟩

theorem Ordered.sublist (h : Ordered c bs) (hsub : bs'.Sublist bs) : Ordered c bs' :=
  ⟨h.titles.sublist (hsub.map _), fun b hb => h.owned b (hsub.subset hb), h.ranked.sublist hsub⟩

/-! ### The operations keep the order -/

theorem map_category_modify {f : Bucket → Bucket} (hf : ∀ b, (f b).category = b.category)
    (bs : Buckets) (title : String) :
    (modify title f bs).map (·.category) = bs.map (·.category) := by
  induction bs with
  | nil => rfl
  | cons d rest ih =>
      unfold modify
      split
      · rw [List.map_cons, hf, List.map_cons]
      · rw [List.map_cons, ih, List.map_cons]

theorem perm_insert (b : Bucket) (bs : Buckets) : (insert b bs).Perm (b :: bs) := by
  induction bs with
  | nil => exact List.Perm.refl _
  | cons d rest ih =>
      unfold insert
      split
      · exact List.Perm.refl _
      · exact (ih.cons d).trans (List.Perm.swap b d rest)

/-- A bucket with a new title can be put in. -/
theorem nodup_titles_insert (h : (bs.map (·.title)).Nodup) (hnew : bs.bucket? b.title = none) :
    ((insert b bs).map (·.title)).Nodup := by
  rw [((perm_insert b bs).map (·.title)).nodup_iff, List.map_cons, List.nodup_cons]
  refine ⟨?_, h⟩
  intro hmem
  obtain ⟨d, hd, htitle⟩ := List.mem_map.mp hmem
  exact bucket?_eq_none.mp hnew d hd htitle

/-- An order that goes by rank is kept when a bucket is put before the first one it outranks. -/
theorem pairwise_insert {R : Bucket → Bucket → Prop}
    (hfront : ∀ d ∈ bs, b.rank.outranks d.rank = true → R b d ∧ ∀ e, R d e → R b e)
    (hback : ∀ d ∈ bs, ¬ b.rank.outranks d.rank = true → R d b) (h : bs.Pairwise R) :
    (insert b bs).Pairwise R := by
  induction bs with
  | nil => exact List.pairwise_singleton _ _
  | cons d rest ih =>
      rw [List.pairwise_cons] at h
      unfold insert
      split
      · rename_i hout
        obtain ⟨hd, hrest⟩ := hfront d List.mem_cons_self hout
        refine List.pairwise_cons.mpr ⟨?_, List.pairwise_cons.mpr h⟩
        intro e he
        rcases List.mem_cons.mp he with rfl | he
        · exact hd
        · exact hrest e (h.1 e he)
      · rename_i hout
        refine List.pairwise_cons.mpr ⟨?_, ih (fun e he => hfront e (by simp [he]))
          (fun e he => hback e (by simp [he])) h.2⟩
        intro e he
        rcases mem_insert.mp he with rfl | he
        · exact hback d List.mem_cons_self hout
        · exact h.1 e he

private theorem ranked_insert (hb : b.category.BelongsTo c) (hfresh : ∀ d ∈ bs, d.title ≠ b.title)
    (howned : ∀ d ∈ bs, d.category = .functions ∨ d.category.BelongsTo c)
    (hranked : bs.Pairwise fun a b => a.category.Precedes b.category) :
    (insert b bs).Pairwise fun a b => a.category.Precedes b.category := by
  refine pairwise_insert ?_ ?_ hranked
  · intro d _ hout
    have hout : b.category.rank.outranks d.category.rank = true := hout
    exact ⟨Or.inl hout, fun e => Category.Precedes.of_outranks hout⟩
  · intro d hd hout
    have hout : ¬ b.category.rank.outranks d.category.rank = true := hout
    -- Of one rank with the new bucket, `d` would be the bucket of the same source.
    rcases howned d hd with hfunctions | hbelongs
    · exact Or.inr hfunctions
    · have hne : d.category.rank ≠ b.category.rank := fun hrank =>
        hfresh d hd (congrArg Category.title (hbelongs.eq_of_rank hb hrank))
      exact Or.inl ((Rank.outranks_of_ne hne).resolve_right hout)

/-- A bucket of a source finds its place in an ordered list. -/
theorem Ordered.insert (h : Ordered c bs) (hb : b.category.BelongsTo c)
    (hnew : bs.bucket? b.title = none) : Ordered c (insert b bs) := by
  have hfresh := bucket?_eq_none.mp hnew
  refine ⟨?_, ?_, ranked_insert hb hfresh h.owned h.ranked⟩
  · exact nodup_titles_insert h.titles hnew
  · intro d hd
    rcases mem_insert.mp hd with rfl | hd
    · exact Or.inr hb
    · exact h.owned d hd

theorem Ordered.merge (h : Ordered c bs) (hc : category.BelongsTo c) (origin : Nat)
    (options : List Suggestion) (limit : Option Nat) :
    Ordered c (bs.merge category origin options limit) := by
  unfold Buckets.merge
  split
  · exact h.congr (map_category_modify (fun b => Bucket.category_contribute ..) bs _)
  · rename_i hnone
    exact h.insert hc (by simpa [Bucket.empty] using hnone)

theorem Ordered.reserve (h : Ordered c bs) (hc : category.BelongsTo c) :
    Ordered c (bs.reserve category) := by
  unfold Buckets.reserve
  split
  · exact h
  · rename_i hnone
    exact h.insert hc (by simpa [Bucket.empty] using hnone)

theorem Ordered.release (h : Ordered c bs) (title : String) : Ordered c (bs.release title) :=
  h.sublist List.filter_sublist

end Buckets

end QueryBar
