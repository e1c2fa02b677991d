/-
What is held in buckets, and what of it is shown.

Nothing is shown that is not held, so that what is true of all that is held is true of all that
is offered (`Bucket.Holds`).  The converse does not hold, because of the limits: what a
definition holds may be hidden behind what others hold.  Function names are an exception
(`Bucket.Fronts`): they are contributed as the first definition of their category is, and the
limit of a whole category is never below the limit of one definition.

What is true of each bucket need only be looked at when something is contributed to one.
-/
import QueryBar.Buckets.Slots
import QueryBar.Proofs.Buckets.Held

namespace QueryBar

theorem sublist_capped {α : Type} (limit : Option Nat) (options : List α) :
    (capped limit options).Sublist options := by
  cases limit with
  | none => exact List.Sublist.refl _
  | some n => exact List.take_sublist ..

/-! ### One bucket -/

namespace Bucket

variable {b : Bucket} {origin : Nat} {options : List Suggestion} {limit : Option Nat}
  {P : Suggestion → Prop} {o : Suggestion}

/-- All that is held in the bucket is of a kind. -/
def Holds (P : Suggestion → Prop) (b : Bucket) : Prop := ∀ c ∈ b.contributions, ∀ o ∈ c.options, P o

theorem holds_empty (P : Suggestion → Prop) (category : Category) : (empty category).Holds P := by
  intro c hc
  contradiction

theorem Holds.contribute (h : b.Holds P) (hoptions : ∀ o ∈ options, P o) :
    (b.contribute origin options limit).Holds P := by
  intro d hd o ho
  rcases Contribution.of_mem_insert hd with ⟨before, hbefore, rfl⟩ | hold
  · rcases Suggestion.of_mem_joinDistinct ((sublist_capped _ _).subset ho) with hearlier | hnew
    · rcases hbefore with rfl | ⟨c, hc, -, rfl⟩
      · contradiction
      · exact h c hc o hearlier
    · exact hoptions o hnew
  · exact h d hold o ho

/-- What is shown is held. -/
theorem Holds.shown (h : b.Holds P) (ho : o ∈ b.options) : P o := by
  rw [options_eq] at ho
  rcases Suggestion.of_mem_joinDistinct ((sublist_capped _ _).subset ho) with hnone | hall
  · contradiction
  · obtain ⟨c, hc, hmem⟩ := List.mem_flatMap.mp hall
    exact h c hc o hmem

/-- Function names are held in front of everything else, and each definition holds each value
once. -/
structure Fronts (b : Bucket) : Prop extends b.Proper where
  distinct : ∀ c ∈ b.contributions, c.options.Pairwise fun s t => ¬ s.agrees t = true
  front : ∀ c ∈ b.contributions, ∀ o ∈ c.options, o.isFunction = true → c.origin = 0

theorem fronts_empty (category : Category) : (empty category).Fronts where
  toProper := proper_empty category
  distinct c hc := by contradiction
  front c hc := by contradiction

theorem Fronts.contribute (h : b.Fronts)
    (hoptions : (∃ o ∈ options, o.isFunction = true) → origin = 0) :
    (b.contribute origin options limit).Fronts where
  toProper := h.toProper.contribute origin options limit
  distinct := by
    intro d hd
    rcases Contribution.of_mem_insert hd with ⟨before, hbefore, rfl⟩ | hold
    · refine List.Pairwise.sublist (sublist_capped limit _)
        (Suggestion.pairwise_joinDistinct options ?_)
      rcases hbefore with rfl | ⟨c, hc, -, rfl⟩
      · exact List.Pairwise.nil
      · exact h.distinct c hc
    · exact h.distinct d hold
  front := by
    intro d hd o ho hfunction
    rcases Contribution.of_mem_insert hd with ⟨before, hbefore, rfl⟩ | hold
    · rcases Suggestion.of_mem_joinDistinct ((sublist_capped limit _).subset ho) with hold | hnew
      · rcases hbefore with rfl | ⟨c, hc, horigin, rfl⟩
        · contradiction
        · exact horigin.symm.trans (h.front c hc o hold hfunction)
      · exact hoptions ⟨o, hnew, hfunction⟩
    · exact h.front d hold o ho hfunction

/-- The limit of the bucket is not below that of any contribution. -/
theorem prefix_capped {c : Contribution} {more : List Suggestion} {cs : List Contribution}
    (hc : c ∈ cs) (hwithin : ∀ n, c.limit = some n → c.options.length ≤ n) :
    c.options <+: capped (Contribution.cap cs) (c.options ++ more) := by
  cases hcap : Contribution.cap cs with
  | none => exact List.prefix_append ..
  | some n =>
      obtain ⟨m, hle, hm⟩ := Contribution.limit_le_cap hcap hc
      have hlength := hwithin m hm
      exact List.prefix_take_iff.mpr ⟨List.prefix_append .., by omega⟩

/-- **Function names are shown wherever they are held.** -/
theorem Fronts.shown (h : b.Fronts) {c : Contribution} (hc : c ∈ b.contributions)
    (ho : o ∈ c.options) (hfunction : o.isFunction = true) : o ∈ b.options := by
  have hzero : c.origin = 0 := h.front c hc o ho hfunction
  rw [options_eq]
  cases hcs : b.contributions with
  | nil =>
      rw [hcs] at hc
      contradiction
  | cons head rest =>
      have hascending := h.ascending
      have hwithin := h.within c hc
      have hdistinct := h.distinct c hc
      rw [hcs] at hc hascending
      -- No origin is below nought, so that the names are in the contribution that comes first.
      obtain rfl : c = head := by
        rcases List.mem_cons.mp hc with heq | hrest
        · exact heq
        · have hlt := (List.pairwise_cons.mp hascending).1 c hrest
          omega
      rw [List.flatMap_cons, Suggestion.joinDistinct_append,
        Suggestion.joinDistinct_nil_of_pairwise hdistinct]
      obtain ⟨more, hmore⟩ := Suggestion.prefix_joinDistinct c.options (rest.flatMap (·.options))
      rw [← hmore]
      exact (prefix_capped hc hwithin).subset ho

end Bucket

/-! ### All buckets -/

namespace Buckets

variable {bs : Buckets} {category : Category} {origin : Nat} {options : List Suggestion}
  {limit : Option Nat} {P : Bucket → Prop} {o : Suggestion}

/-- The suggestion is among those that are offered. -/
def Shows (bs : Buckets) (o : Suggestion) : Prop := ∃ b ∈ bs, o ∈ b.options

instance (bs : Buckets) (o : Suggestion) : Decidable (bs.Shows o) :=
  inferInstanceAs (Decidable (∃ b ∈ bs, o ∈ b.options))

/-- What stands on a slot is offered. -/
theorem shows_of_get? {slot : Nat} (h : bs.get? slot = some o) : bs.Shows o := by
  induction bs generalizing slot with
  | nil => contradiction
  | cons b rest ih =>
      unfold get? at h
      split at h
      · exact ⟨b, List.mem_cons_self, List.mem_of_getElem? h⟩
      · obtain ⟨b', hb', ho⟩ := ih h
        exact ⟨b', List.mem_cons_of_mem _ hb', ho⟩

theorem mem_modify {title : String} {f : Bucket → Bucket} {b : Bucket}
    (h : b ∈ bs.modify title f) : b ∈ bs ∨ ∃ a ∈ bs, b = f a := by
  induction bs with
  | nil => exact Or.inl h
  | cons d rest ih =>
      unfold modify at h
      split at h
      · rcases List.mem_cons.mp h with hnew | hold
        · exact Or.inr ⟨d, List.mem_cons_self, hnew⟩
        · exact Or.inl (List.mem_cons_of_mem _ hold)
      · rcases List.mem_cons.mp h with rfl | hrest
        · exact Or.inl List.mem_cons_self
        · rcases ih hrest with hold | ⟨a, ha, hnew⟩
          · exact Or.inl (List.mem_cons_of_mem _ hold)
          · exact Or.inr ⟨a, List.mem_cons_of_mem _ ha, hnew⟩

/-- **What is true of each bucket stays true of each if it does when something is contributed.** -/
theorem forall_merge (h : ∀ b ∈ bs, P b) (hempty : P (.empty category))
    (hcontribute : ∀ b, P b → P (b.contribute origin options limit)) :
    ∀ b ∈ bs.merge category origin options limit, P b := by
  intro b hb
  unfold merge at hb
  split at hb
  · rcases mem_modify hb with hold | ⟨a, ha, rfl⟩
    · exact h b hold
    · exact hcontribute a (h a ha)
  · rcases mem_insert.mp hb with rfl | hold
    · exact hcontribute _ hempty
    · exact h b hold

theorem forall_reserve (h : ∀ b ∈ bs, P b) (hempty : P (.empty category)) :
    ∀ b ∈ bs.reserve category, P b := by
  intro b hb
  unfold reserve at hb
  split at hb
  · exact h b hb
  · rcases mem_insert.mp hb with rfl | hold
    · exact hempty
    · exact h b hold

theorem forall_release (h : ∀ b ∈ bs, P b) (title : String) : ∀ b ∈ bs.release title, P b :=
  fun b hb => h b (List.mem_of_mem_filter hb)

end Buckets

end QueryBar
