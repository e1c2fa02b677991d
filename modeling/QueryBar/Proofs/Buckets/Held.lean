/-
What each definition holds in a bucket.

The contributions of a bucket ascend by origin, and none is longer than its limit
(`Bucket.Proper`).  A bucket of that kind can be read as a table from definitions to what
they hold (`Contribution.held`): to contribute changes the entry of one definition, and a
bucket shows nothing just when nothing is held in it.

A definition that holds as much as its limit allows takes nothing more, so it does not
matter then what else is contributed to it (`insert_eq_of_full`).
-/
import QueryBar.Proofs.Buckets.View

namespace QueryBar

namespace Contribution

variable {origin place : Nat} {options options' : List Suggestion} {limit : Option Nat}
  {cs : List Contribution}

/-- The suggestions of one definition among the contributions. -/
def held (cs : List Contribution) (origin : Nat) : List Suggestion :=
  ((cs.find? (·.origin == origin)).map (·.options)).getD []

theorem held_nil (origin : Nat) : held [] origin = [] := rfl

theorem held_cons (c : Contribution) (cs : List Contribution) (origin : Nat) :
    held (c :: cs) origin = if c.origin = origin then c.options else held cs origin := by
  unfold held
  rw [List.find?_cons]
  by_cases h : c.origin = origin
  · simp [h]
  · have hne : (c.origin == origin) = false := by simpa using h
    simp [h, hne]

/-- Behind its place in an ascending list a definition holds nothing. -/
theorem held_of_lt (h : ∀ c ∈ cs, origin < c.origin) : held cs origin = [] := by
  have hnone : cs.find? (·.origin == origin) = none := by
    rw [List.find?_eq_none]
    intro c hc
    have hlt := h c hc
    simp
    omega
  unfold held
  rw [hnone]
  rfl

/-- Nothing is held just when no contribution has suggestions, if each definition has one. -/
theorem held_eq_nil_iff (h : cs.Pairwise (·.origin < ·.origin)) :
    (∀ origin, held cs origin = []) ↔ ∀ c ∈ cs, c.options = [] := by
  induction cs with
  | nil => simp [held_nil]
  | cons c rest ih =>
      rw [List.pairwise_cons] at h
      rw [List.forall_mem_cons, ← ih h.2]
      constructor
      · intro hall
        refine ⟨by simpa [held_cons] using hall c.origin, ?_⟩
        intro origin
        by_cases hc : c.origin = origin
        · exact held_of_lt (hc ▸ h.1)
        · simpa [held_cons, hc] using hall origin
      · rintro ⟨hhead, hall⟩ origin
        rw [held_cons, hhead, hall, ite_self]

/-! ### Contributing -/

/-- What is among the contributions afterwards was there before, or is the new one, which goes on
from what its definition had contributed. -/
theorem of_mem_insert {d : Contribution} (hd : d ∈ insert origin options limit cs) :
    (∃ before, (before = [] ∨ ∃ c ∈ cs, c.origin = origin ∧ c.options = before) ∧
      d = after before origin options limit) ∨ d ∈ cs := by
  induction cs with
  | nil => exact Or.inl ⟨[], Or.inl rfl, List.mem_singleton.mp hd⟩
  | cons c rest ih =>
      unfold insert at hd
      split at hd
      · rename_i hc
        rcases List.mem_cons.mp hd with hnew | hold
        · exact Or.inl ⟨c.options, Or.inr ⟨c, List.mem_cons_self, hc, rfl⟩, hnew⟩
        · exact Or.inr (by simp [hold])
      · split at hd
        · rcases List.mem_cons.mp hd with hnew | hold
          · exact Or.inl ⟨[], Or.inl rfl, hnew⟩
          · exact Or.inr hold
        · rcases List.mem_cons.mp hd with rfl | hd
          · exact Or.inr (by simp)
          · rcases ih hd with ⟨before, hbefore, hnew⟩ | hold
            · refine Or.inl ⟨before, hbefore.imp_right ?_, hnew⟩
              rintro ⟨c', hc', hoptions⟩
              exact ⟨c', List.mem_cons_of_mem _ hc', hoptions⟩
            · exact Or.inr (List.mem_cons_of_mem _ hold)

/-- What a definition contributes that has not contributed yet is put beside what is there. -/
theorem mem_insert_of_fresh {c : Contribution} (hfresh : ∀ e ∈ cs, e.origin ≠ origin) :
    c ∈ insert origin options limit cs ↔ c = after [] origin options limit ∨ c ∈ cs := by
  induction cs with
  | nil => simp [insert]
  | cons e rest ih =>
      have hrest := ih fun e he => hfresh e (List.mem_cons_of_mem _ he)
      unfold insert
      rw [if_neg (hfresh e List.mem_cons_self)]
      split
      · rw [List.mem_cons]
      · rw [List.mem_cons, hrest, List.mem_cons]
        tauto

/-- No definition loses its contribution. -/
theorem exists_origin_insert (origin : Nat) (options : List Suggestion) (limit : Option Nat)
    {d : Contribution} (hd : d ∈ cs) :
    ∃ d' ∈ insert origin options limit cs, d'.origin = d.origin := by
  induction cs with
  | nil => simp at hd
  | cons c rest ih =>
      unfold insert
      split
      · rename_i hc
        rcases List.mem_cons.mp hd with rfl | hd
        · exact ⟨_, List.mem_cons_self, hc.symm⟩
        · exact ⟨d, by simp [hd], rfl⟩
      · split
        · exact ⟨d, List.mem_cons_of_mem _ hd, rfl⟩
        · rcases List.mem_cons.mp hd with rfl | hd
          · exact ⟨d, by simp, rfl⟩
          · obtain ⟨d', hd', horigin⟩ := ih hd
            exact ⟨d', List.mem_cons_of_mem _ hd', horigin⟩

theorem ascending_insert (h : cs.Pairwise (·.origin < ·.origin)) :
    (insert origin options limit cs).Pairwise (·.origin < ·.origin) := by
  induction cs with
  | nil => exact List.pairwise_singleton ..
  | cons c rest ih =>
      rw [List.pairwise_cons] at h
      unfold insert
      split
      · rename_i hc
        exact List.pairwise_cons.mpr ⟨fun d hd => hc ▸ h.1 d hd, h.2⟩
      · split
        · rename_i hlt
          refine List.pairwise_cons.mpr ⟨?_, List.pairwise_cons.mpr h⟩
          intro d hd
          rcases List.mem_cons.mp hd with rfl | hd
          · exact hlt
          · exact Nat.lt_trans hlt (h.1 d hd)
        · refine List.pairwise_cons.mpr ⟨?_, ih h.2⟩
          intro d hd
          rcases of_mem_insert hd with ⟨before, -, rfl⟩ | hold
          · rw [origin_after]
            omega
          · exact h.1 d hold

theorem find?_of_mem {c : Contribution} (h : cs.Pairwise (·.origin < ·.origin)) (hc : c ∈ cs) :
    cs.find? (·.origin == c.origin) = some c := by
  induction cs with
  | nil => contradiction
  | cons e rest ih =>
      rw [List.pairwise_cons] at h
      rcases List.mem_cons.mp hc with rfl | hrest
      · exact List.find?_cons_of_pos (by simp)
      · have hlt := h.1 c hrest
        rw [List.find?_cons_of_neg (by simp; omega)]
        exact ih h.2 hrest

theorem held_of_mem {c : Contribution} (h : cs.Pairwise (·.origin < ·.origin)) (hc : c ∈ cs) :
    held cs c.origin = c.options := by
  unfold held
  rw [find?_of_mem h hc]
  rfl

/-- To contribute changes what is found of one definition. -/
theorem find?_insert (h : cs.Pairwise (·.origin < ·.origin)) (place : Nat) :
    (insert origin options limit cs).find? (·.origin == place)
      = if origin = place then some (after (held cs origin) origin options limit)
        else cs.find? (·.origin == place) := by
  by_cases hplace : origin = place
  · subst hplace
    rw [if_pos rfl]
    induction cs with
    | nil => exact List.find?_cons_of_pos (by simp)
    | cons c rest ih =>
        rw [List.pairwise_cons] at h
        unfold insert
        split
        · rename_i hc
          rw [held_cons, if_pos hc]
          exact List.find?_cons_of_pos (by simp)
        · rename_i hc
          split
          · rename_i hlt
            have hnone : held (c :: rest) origin = [] := by
              refine held_of_lt ?_
              intro d hd
              rcases List.mem_cons.mp hd with rfl | hd
              · exact hlt
              · exact Nat.lt_trans hlt (h.1 d hd)
            rw [hnone]
            exact List.find?_cons_of_pos (by simp)
          · rw [List.find?_cons_of_neg (by simpa using hc), ih h.2, held_cons, if_neg hc]
  · rw [if_neg hplace]
    induction cs with
    | nil => exact List.find?_cons_of_neg (by simpa using hplace)
    | cons c rest ih =>
        rw [List.pairwise_cons] at h
        unfold insert
        split
        · rename_i hc
          rw [List.find?_cons_of_neg (by simpa using hplace),
            List.find?_cons_of_neg (by simpa [hc] using hplace)]
        · split
          · exact List.find?_cons_of_neg (by simpa using hplace)
          · rw [List.find?_cons, List.find?_cons, ih h.2]

/-- **To contribute changes what one definition holds.** -/
theorem held_insert (h : cs.Pairwise (·.origin < ·.origin)) (place : Nat) :
    held (insert origin options limit cs) place
      = if origin = place then capped limit (Suggestion.joinDistinct (held cs origin) options)
        else held cs place := by
  show (((insert origin options limit cs).find? _).map _).getD _ = _
  rw [find?_insert h]
  split
  · rfl
  · rfl

/-- A definition that has its fill keeps it. -/
theorem le_length_capped {n : Nat} {before : List Suggestion} (options : List Suggestion)
    (hfull : n ≤ before.length) :
    n ≤ (capped (some n) (Suggestion.joinDistinct before options)).length := by
  have hlength := (Suggestion.prefix_joinDistinct before options).length_le
  simp only [capped, List.length_take]
  omega

private theorem after_eq_of_full {n : Nat} {before : List Suggestion} (hfull : n ≤ before.length) :
    after before origin options (some n) = after before origin options' (some n) := by
  obtain ⟨more, hmore⟩ := Suggestion.prefix_joinDistinct before options
  obtain ⟨more', hmore'⟩ := Suggestion.prefix_joinDistinct before options'
  have hcut : ∀ more : List Suggestion, capped (some n) (before ++ more) = before.take n :=
    fun _ => List.take_append_of_le_length hfull
  unfold after
  rw [← hmore, ← hmore', hcut, hcut]

/-- What is contributed to a definition that has its fill makes no difference. -/
theorem insert_eq_of_full (h : cs.Pairwise (·.origin < ·.origin)) {n : Nat}
    (hfull : n ≤ (held cs origin).length) :
    insert origin options (some n) cs = insert origin options' (some n) cs := by
  induction cs with
  | nil =>
      rw [held_nil] at hfull
      unfold insert
      rw [after_eq_of_full hfull]
  | cons c rest ih =>
      rw [held_cons] at hfull
      rw [List.pairwise_cons] at h
      unfold insert
      by_cases hc : c.origin = origin
      · rw [if_pos hc] at hfull
        rw [if_pos hc, if_pos hc, after_eq_of_full hfull]
      · rw [if_neg hc] at hfull
        rw [if_neg hc, if_neg hc]
        by_cases hlt : origin < c.origin
        · have hnone : held rest origin = [] :=
            held_of_lt fun d hd => Nat.lt_trans hlt (h.1 d hd)
          rw [hnone] at hfull
          rw [if_pos hlt, if_pos hlt, after_eq_of_full hfull]
        · rw [if_neg hlt, if_neg hlt, ih h.2 hfull]

end Contribution

namespace Bucket

variable {b : Bucket} {origin : Nat} {options options' : List Suggestion} {limit : Option Nat}

/-- The contributions ascend, and each is within its limit. -/
structure Proper (b : Bucket) : Prop where
  ascending : b.contributions.Pairwise (·.origin < ·.origin)
  within : ∀ d ∈ b.contributions, ∀ n, d.limit = some n → d.options.length ≤ n

/-- What a definition holds in the bucket. -/
def held (b : Bucket) (origin : Nat) : List Suggestion := Contribution.held b.contributions origin

theorem proper_empty (c : Category) : (empty c).Proper := ⟨List.Pairwise.nil, by simp [empty]⟩

theorem Proper.contribute (h : b.Proper) (origin : Nat) (options : List Suggestion)
    (limit : Option Nat) : (b.contribute origin options limit).Proper := by
  refine ⟨Contribution.ascending_insert h.ascending, ?_⟩
  intro d hd n hn
  rcases Contribution.of_mem_insert hd with ⟨before, -, rfl⟩ | hold
  · have hlimit : limit = some n := hn
    rw [hlimit]
    exact List.length_take_le ..
  · exact h.within d hold n hn

theorem held_contribute (h : b.Proper) (place : Nat) :
    (b.contribute origin options limit).held place
      = if origin = place then capped limit (Suggestion.joinDistinct (b.held origin) options)
        else b.held place :=
  Contribution.held_insert h.ascending place

theorem contribute_eq_of_full (h : b.Proper) {n : Nat} (hfull : n ≤ (b.held origin).length)
    (options options' : List Suggestion) :
    b.contribute origin options (some n) = b.contribute origin options' (some n) := by
  unfold contribute
  rw [Contribution.insert_eq_of_full h.ascending hfull]

/-- Two contributions of a definition that has its fill can be made in either order. -/
theorem contribute_comm_of_full (h : b.Proper) {n : Nat} (hfull : n ≤ (b.held origin).length)
    (options options' : List Suggestion) :
    (b.contribute origin options' (some n)).contribute origin options (some n)
      = (b.contribute origin options (some n)).contribute origin options' (some n) := by
  have hstill : n ≤ ((b.contribute origin options (some n)).held origin).length := by
    rw [held_contribute h, if_pos rfl]
    exact Contribution.le_length_capped options hfull
  rw [contribute_eq_of_full h hfull options' options]
  exact contribute_eq_of_full (h.contribute ..) hstill options options'

/-- **A bucket shows nothing just when nothing is held in it.** -/
theorem isPlaceholder_iff (h : b.Proper) :
    b.isPlaceholder = true ↔ ∀ origin, b.held origin = [] := by
  refine Iff.trans ?_ (Contribution.held_eq_nil_iff h.ascending).symm
  constructor
  · intro hempty d hd
    by_contra hsome
    have hlimit : d.limit ≠ some 0 := by
      intro hzero
      exact hsome (List.length_eq_zero_iff.mp (Nat.le_zero.mp (h.within d hd 0 hzero)))
    have hall : b.contributions.flatMap (·.options) ≠ [] := by
      intro hnil
      exact hsome (List.flatMap_eq_nil_iff.mp hnil d hd)
    have hshown : b.options ≠ [] := by
      rw [options_eq]
      exact capped_ne_nil (Contribution.cap_ne_zero hd hlimit)
        (Suggestion.joinDistinct_ne_nil (Or.inr hall))
    exact hshown (by simpa [isPlaceholder] using hempty)
  · intro hall
    have hnil : b.contributions.flatMap (·.options) = [] := List.flatMap_eq_nil_iff.mpr hall
    unfold isPlaceholder
    rw [options_eq, hnil]
    cases Contribution.cap b.contributions <;> simp [capped, Suggestion.joinDistinct]

/-- Where anything is held, something is seen. -/
theorem isPlaceholder_of_held (h : b.Proper) (hheld : b.held origin ≠ []) :
    b.isPlaceholder = false := by
  rw [← Bool.not_eq_true]
  exact fun hempty => hheld ((isPlaceholder_iff h).mp hempty origin)

end Bucket

end QueryBar
