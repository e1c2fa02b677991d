/-
Buckets seen as a table from titles to buckets.

`Buckets.bucket?` is the view: every operation changes the entry of one title and leaves
all others as they are.  Where a bucket stands in the list does not show in the view;
`Proofs/Buckets/Order.lean` says that titles and ranks settle it, so that two lists of
buckets that look the same in this view are the same list.

`release` is the one operation for which titles have to occur once: it removes all
buckets with a title, and the view shows the first.
-/
import QueryBar.Proofs.Buckets.Contributions

namespace QueryBar.Buckets

variable {bs : Buckets} {b : Bucket} {c : Category} {title : String} {f : Bucket → Bucket}

/-! ### Reading the table -/

theorem bucket?_cons (b : Bucket) (bs : Buckets) (title : String) :
    bucket? (b :: bs) title = if b.title = title then some b else bs.bucket? title := by
  unfold bucket?
  rw [List.find?_cons]
  by_cases h : b.title = title
  · simp [h]
  · have hne : (b.title == title) = false := by simpa using h
    simp [h, hne]

theorem mem_of_bucket? (h : bs.bucket? title = some b) : b ∈ bs := List.mem_of_find?_eq_some h

theorem bucket?_eq_none : bs.bucket? title = none ↔ ∀ b ∈ bs, b.title ≠ title := by
  simp [bucket?]

/-- Where titles occur once, each bucket is the entry of its title. -/
theorem bucket?_title (h : (bs.map (·.title)).Nodup) (hb : b ∈ bs) :
    bs.bucket? b.title = some b := by
  induction bs with
  | nil => simp at hb
  | cons a rest ih =>
      rw [List.map_cons, List.nodup_cons] at h
      rw [bucket?_cons]
      rcases List.mem_cons.mp hb with rfl | hrest
      · rw [if_pos rfl]
      · have hne : a.title ≠ b.title := by
          intro heq
          exact h.1 (heq ▸ List.mem_map_of_mem hrest)
        rw [if_neg hne, ih h.2 hrest]

theorem mem_iff_bucket? (h : (bs.map (·.title)).Nodup) : b ∈ bs ↔ bs.bucket? b.title = some b :=
  ⟨bucket?_title h, mem_of_bucket?⟩

/-! ### Changing one entry -/

theorem mem_insert {a : Bucket} : a ∈ insert b bs ↔ a = b ∨ a ∈ bs := by
  induction bs with
  | nil => simp [insert]
  | cons d rest ih =>
      unfold insert
      split
      · simp
      · rw [List.mem_cons, ih, List.mem_cons]
        tauto

theorem bucket?_insert (h : bs.bucket? b.title = none) (title : String) :
    (insert b bs).bucket? title = if b.title = title then some b else bs.bucket? title := by
  induction bs with
  | nil => rw [insert, bucket?_cons]
  | cons d rest ih =>
      rw [bucket?_cons] at h
      by_cases hd : d.title = b.title
      · simp [hd] at h
      · rw [if_neg hd] at h
        unfold insert
        split
        · rw [bucket?_cons]
        · rw [bucket?_cons, ih h, bucket?_cons]
          by_cases hb : b.title = title
          · rw [if_pos hb, if_pos hb, if_neg fun hdt => hd (hdt.trans hb.symm)]
          · rw [if_neg hb, if_neg hb]

/-- Where titles occur once, one bucket is changed. -/
theorem mem_modify_iff (h : (bs.map (·.title)).Nodup) :
    b ∈ bs.modify title f ↔
      (b ∈ bs ∧ b.title ≠ title) ∨ ∃ a ∈ bs, a.title = title ∧ b = f a := by
  induction bs with
  | nil => simp [modify]
  | cons d rest ih =>
      rw [List.map_cons, List.nodup_cons] at h
      unfold modify
      by_cases hd : d.title = title
      · have hrest : ∀ a ∈ rest, a.title ≠ title := fun a ha htitle =>
          h.1 (List.mem_map.mpr ⟨a, ha, htitle.trans hd.symm⟩)
        rw [if_pos hd]
        constructor
        · intro hb
          rcases List.mem_cons.mp hb with rfl | hb
          · exact Or.inr ⟨d, List.mem_cons_self, hd, rfl⟩
          · exact Or.inl ⟨List.mem_cons_of_mem _ hb, hrest b hb⟩
        · rintro (⟨hb, hne⟩ | ⟨a, ha, htitle, rfl⟩)
          · rcases List.mem_cons.mp hb with rfl | hb
            · exact absurd hd hne
            · exact List.mem_cons_of_mem _ hb
          · rcases List.mem_cons.mp ha with rfl | ha
            · exact List.mem_cons_self
            · exact absurd htitle (hrest a ha)
      · rw [if_neg hd, List.mem_cons, ih h.2]
        simp only [List.mem_cons, exists_eq_or_imp, hd, false_and, false_or]
        by_cases hb : b = d
        · simp [hb, hd]
        · simp [hb]

theorem bucket?_modify (hf : ∀ b, (f b).title = b.title) (bs : Buckets) (title sought : String) :
    (modify title f bs).bucket? sought
      = if title = sought then (bs.bucket? sought).map f else bs.bucket? sought := by
  induction bs with
  | nil => simp [modify, bucket?]
  | cons d rest ih =>
      unfold modify
      by_cases hd : d.title = title
      · rw [if_pos hd, bucket?_cons, bucket?_cons, hf, hd]
        by_cases ht : title = sought
        · simp [ht]
        · simp [ht]
      · rw [if_neg hd, bucket?_cons, bucket?_cons, ih]
        by_cases hs : d.title = sought
        · have ht : title ≠ sought := fun h => hd (hs.trans h.symm)
          simp [hs, ht]
        · simp [hs]

/-! ### The operations -/

/-- **A merge contributes to the entry of its category, which is new or there already.** -/
theorem bucket?_merge (bs : Buckets) (c : Category) (origin : Nat) (options : List Suggestion)
    (limit : Option Nat) (title : String) :
    (bs.merge c origin options limit).bucket? title
      = if c.title = title then
          some (((bs.bucket? title).getD (.empty c)).contribute origin options limit)
        else bs.bucket? title := by
  unfold merge
  cases hc : bs.bucket? c.title with
  | none =>
      rw [if_neg (by simp), bucket?_insert (by simpa [Bucket.empty] using hc)]
      by_cases ht : c.title = title
      · subst ht
        simp [hc, Bucket.empty]
      · simp [ht, Bucket.empty]
  | some b =>
      rw [if_pos (by simp), bucket?_modify (Bucket.title_contribute · origin options limit)]
      by_cases ht : c.title = title
      · subst ht
        simp [hc]
      · simp [ht]

theorem bucket?_reserve (bs : Buckets) (c : Category) (title : String) :
    (bs.reserve c).bucket? title
      = if c.title = title then some ((bs.bucket? title).getD (.empty c))
        else bs.bucket? title := by
  unfold reserve
  cases hc : bs.bucket? c.title with
  | none =>
      rw [if_neg (by simp), bucket?_insert (by simpa [Bucket.empty] using hc)]
      by_cases ht : c.title = title
      · subst ht
        simp [hc, Bucket.empty]
      · simp [ht, Bucket.empty]
  | some b =>
      rw [if_pos (by simp)]
      by_cases ht : c.title = title
      · subst ht
        simp [hc]
      · simp [ht]

theorem bucket?_release (h : (bs.map (·.title)).Nodup) (title sought : String) :
    (bs.release title).bucket? sought
      = if title = sought then (bs.bucket? sought).filter (!·.isPlaceholder)
        else bs.bucket? sought := by
  induction bs with
  | nil => simp [release, bucket?]
  | cons d rest ih =>
      rw [List.map_cons, List.nodup_cons] at h
      have hrest := ih h.2
      unfold release at hrest ⊢
      rw [List.filter_cons]
      by_cases hgone : d.title = title ∧ d.isPlaceholder = true
      · obtain ⟨hd, hempty⟩ := hgone
        rw [if_neg (by simp [hd, hempty]), hrest, bucket?_cons, hd]
        by_cases ht : title = sought
        · have hnone : bucket? rest sought = none := by
            rw [bucket?_eq_none]
            intro b hb hbt
            exact h.1 (List.mem_map.mpr ⟨b, hb, hbt.trans (ht.symm.trans hd.symm)⟩)
          simp [ht, hnone, Option.filter, hempty]
        · simp [ht]
      · have hkept : (!(d.title == title && d.isPlaceholder)) = true := by
          rw [Bool.not_eq_true', Bool.and_eq_false_iff, beq_eq_false_iff_ne]
          by_cases hd : d.title = title
          · exact Or.inr (by simpa using fun hempty => hgone ⟨hd, hempty⟩)
          · exact Or.inl hd
        rw [if_pos hkept, bucket?_cons, bucket?_cons, hrest]
        by_cases hs : d.title = sought
        · by_cases ht : title = sought
          · have hshown : d.isPlaceholder = false := by
              simpa using fun hempty => hgone ⟨hs.trans ht.symm, hempty⟩
            simp [hs, ht, Option.filter, hshown]
          · simp [hs, ht]
        · simp [hs]

end QueryBar.Buckets
