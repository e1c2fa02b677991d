/-
What one bucket shows.

A bucket holds one contribution for each definition that found something, in the order
of the definitions.  `Contribution.insert` replaces the contribution of a definition or
puts a new one where it belongs, so two insertions for different definitions commute,
and one behind all that are there appends.

What is shown is the contributions one after the other, each value once, cut to the
largest limit.  A contribution with suggestions and a limit other than nought is
therefore enough for the bucket to show something: the limit that counts can only be
larger than its own.
-/
import Mathlib.Data.List.Basic
import QueryBar.Buckets

namespace QueryBar

/-! ### Each value once -/

namespace Suggestion

/-- Joining goes on where it stopped. -/
theorem joinDistinct_append (options more rest : List Suggestion) :
    joinDistinct options (more ++ rest) = joinDistinct (joinDistinct options more) rest :=
  List.foldl_append ..

/-- A join puts some of the new suggestions behind the old ones. -/
theorem exists_joinDistinct_eq (options more : List Suggestion) :
    ∃ added, joinDistinct options more = options ++ added ∧ added.Sublist more := by
  induction more generalizing options with
  | nil => exact ⟨[], (List.append_nil _).symm, List.Sublist.refl _⟩
  | cons s rest ih =>
      obtain ⟨added, hjoin, hsub⟩ := ih (addDistinct options s)
      have hstep : joinDistinct options (s :: rest) = joinDistinct (addDistinct options s) rest :=
        rfl
      rw [hstep, hjoin]
      unfold addDistinct
      split
      · exact ⟨added, rfl, hsub.cons s⟩
      · exact ⟨s :: added, by simp, hsub.cons_cons s⟩

/-- What was there before stays in front. -/
theorem prefix_joinDistinct (options more : List Suggestion) :
    options <+: joinDistinct options more := by
  obtain ⟨added, hjoin, -⟩ := exists_joinDistinct_eq options more
  exact ⟨added, hjoin.symm⟩

theorem of_mem_joinDistinct {o : Suggestion} {options more : List Suggestion}
    (h : o ∈ joinDistinct options more) : o ∈ options ∨ o ∈ more := by
  obtain ⟨added, hjoin, hsub⟩ := exists_joinDistinct_eq options more
  rw [hjoin] at h
  exact (List.mem_append.mp h).imp_right fun hadded => hsub.subset hadded

/-- A join changes nothing just when all values are there already. -/
theorem joinDistinct_eq_self_iff {options more : List Suggestion} :
    joinDistinct options more = options ↔ ∀ o ∈ more, ∃ s ∈ options, s.agrees o = true := by
  induction more with
  | nil => exact iff_of_true rfl (by simp)
  | cons o rest ih =>
      have hstep : joinDistinct options (o :: rest) = joinDistinct (addDistinct options o) rest :=
        rfl
      rw [hstep, List.forall_mem_cons, ← List.any_eq_true]
      unfold addDistinct
      split
      · rename_i hthere
        rw [ih]
        exact (and_iff_right hthere).symm
      · rename_i hnew
        refine iff_of_false ?_ fun h => hnew h.1
        intro heq
        have hlength := (prefix_joinDistinct (options ++ [o]) rest).length_le
        rw [heq, List.length_append, List.length_singleton] at hlength
        omega

theorem joinDistinct_ne_nil {options more : List Suggestion} (h : options ≠ [] ∨ more ≠ []) :
    joinDistinct options more ≠ [] := by
  intro hnil
  have hprefix := prefix_joinDistinct options more
  rw [hnil, List.prefix_nil] at hprefix
  subst hprefix
  cases more with
  | nil => simp at h
  | cons s rest =>
      have hhead := prefix_joinDistinct [s] rest
      have hstep : joinDistinct [] (s :: rest) = joinDistinct [s] rest := rfl
      rw [← hstep, hnil] at hhead
      simp at hhead

/-- A list without two suggestions of one value is joined as it is. -/
theorem joinDistinct_of_pairwise {options more : List Suggestion}
    (h : (options ++ more).Pairwise fun s t => ¬ s.agrees t = true) :
    joinDistinct options more = options ++ more := by
  induction more generalizing options with
  | nil => rw [List.append_nil]; rfl
  | cons s rest ih =>
      have hnew : ¬ options.any (·.agrees s) = true := by
        intro hany
        obtain ⟨t, ht, hagrees⟩ := List.any_eq_true.mp hany
        exact (List.pairwise_append.mp h).2.2 t ht s (by simp) hagrees
      have hstep : addDistinct options s = options ++ [s] := if_neg hnew
      show joinDistinct (addDistinct options s) rest = _
      rw [hstep, ih (by simpa using h), List.append_assoc, List.singleton_append]

/-- Joined to nothing, a list without two suggestions of one value is as it is. -/
theorem joinDistinct_nil_of_pairwise {options : List Suggestion}
    (h : options.Pairwise fun s t => ¬ s.agrees t = true) : joinDistinct [] options = options :=
  joinDistinct_of_pairwise h

/-- After a join no two suggestions have one value, if none had before. -/
theorem pairwise_joinDistinct {options : List Suggestion} (more : List Suggestion)
    (h : options.Pairwise fun s t => ¬ s.agrees t = true) :
    (joinDistinct options more).Pairwise fun s t => ¬ s.agrees t = true := by
  induction more generalizing options with
  | nil => exact h
  | cons s rest ih =>
      refine ih ?_
      unfold addDistinct
      split
      · exact h
      · rename_i hnew
        refine List.pairwise_append.mpr ⟨h, List.pairwise_singleton .., ?_⟩
        intro t ht u hu hagrees
        rw [List.mem_singleton.mp hu] at hagrees
        exact hnew (List.any_eq_true.mpr ⟨t, ht, hagrees⟩)

private theorem eraseDupsBy_loop (more seen : List Suggestion) :
    List.eraseDupsBy.loop (fun s t => t.agrees s) more seen
      = joinDistinct seen.reverse more := by
  induction more generalizing seen with
  | nil => rfl
  | cons s rest ih =>
      have hany : seen.reverse.any (·.agrees s) = seen.any (·.agrees s) := List.any_reverse
      rw [List.eraseDupsBy.loop]
      show _ = joinDistinct (addDistinct seen.reverse s) rest
      unfold addDistinct
      rw [hany]
      split
      · rename_i hseen
        rw [if_pos hseen, ih]
      · rename_i hnew
        rw [if_neg (by simp [hnew]), ih, List.reverse_cons]

/-- Joined to nothing, a list keeps the first occurrence of each value. -/
theorem joinDistinct_nil_left (options : List Suggestion) :
    joinDistinct [] options = options.eraseDupsBy fun s t => t.agrees s :=
  (eraseDupsBy_loop options []).symm

end Suggestion

/-- A list with suggestions still has some after a cut that is not to nothing. -/
theorem capped_ne_nil {α : Type} {limit : Option Nat} {options : List α}
    (hlimit : limit ≠ some 0) (h : options ≠ []) : capped limit options ≠ [] := by
  cases limit with
  | none => exact h
  | some n =>
      have hn : n ≠ 0 := fun hzero => hlimit (by rw [hzero])
      simp [capped, hn, h]

namespace Contribution

variable {before options options' : List Suggestion} {limit limit' : Option Nat}
  {origin origin' : Nat} {cs : List Contribution}

/-! ### Putting contributions in -/

@[simp] theorem origin_after : (after before origin options limit).origin = origin := rfl

/-- **The contributions of different definitions can be put in in either order.** -/
theorem insert_comm (h : origin ≠ origin') (cs : List Contribution) :
    insert origin options limit (insert origin' options' limit' cs)
      = insert origin' options' limit' (insert origin options limit cs) := by
  induction cs with
  | nil =>
      rcases Nat.lt_or_gt_of_ne h with hlt | hgt
      · simp [insert, h, h.symm, hlt, Nat.not_lt_of_gt hlt]
      · simp [insert, h, h.symm, hgt, Nat.not_lt_of_gt hgt]
  | cons c rest ih =>
      simp only [insert]
      grind [insert, origin_after]

/-- Behind all others, a contribution goes to the end. -/
theorem insert_of_lt (h : ∀ c ∈ cs, c.origin < origin) :
    insert origin options limit cs = cs ++ [after [] origin options limit] := by
  induction cs with
  | nil => rfl
  | cons c rest ih =>
      have hc : c.origin < origin := h c (by simp)
      rw [insert, if_neg (Nat.ne_of_lt hc), if_neg (Nat.lt_asymm hc),
        ih fun d hd => h d (by simp [hd]), List.cons_append]

/-- Something new is among the contributions afterwards, with the limit that was given. -/
theorem exists_mem_insert (origin : Nat) (options : List Suggestion) (limit : Option Nat)
    (cs : List Contribution) :
    ∃ before, after before origin options limit ∈ insert origin options limit cs := by
  induction cs with
  | nil => exact ⟨[], by simp [insert]⟩
  | cons c rest ih =>
      obtain ⟨before, hmem⟩ := ih
      unfold insert
      split
      · exact ⟨c.options, by simp⟩
      · split
        · exact ⟨[], by simp⟩
        · exact ⟨before, by simp [hmem]⟩

/-! ### The limit of a whole bucket -/

/-- The limit of a bucket is not below that of any contribution. -/
theorem limit_le_cap {c : Contribution} {k : Nat} (hcap : cap cs = some k) (hc : c ∈ cs) :
    ∃ m, m ≤ k ∧ c.limit = some m := by
  unfold cap at hcap
  split at hcap
  · contradiction
  · rename_i hall
    cases hlimit : c.limit with
    | none => exact absurd (List.any_eq_true.mpr ⟨c, hc, by simp [hlimit]⟩) hall
    | some m =>
        refine ⟨m, ?_, rfl⟩
        exact (List.max?_le_iff hcap).mp (Nat.le_refl k) m
          (List.mem_filterMap.mpr ⟨c, hc, hlimit⟩)

/-- A bound of all limits is one of the limit of the bucket. -/
theorem exists_cap_le {n : Nat} (hsome : cs ≠ [])
    (h : ∀ c ∈ cs, ∃ m, m ≤ n ∧ c.limit = some m) : ∃ k, k ≤ n ∧ cap cs = some k := by
  have hall : ¬ cs.any (·.limit.isNone) = true := by
    intro hany
    obtain ⟨c, hc, hnone⟩ := List.any_eq_true.mp hany
    obtain ⟨m, -, hm⟩ := h c hc
    rw [hm] at hnone
    contradiction
  have hlimits : cs.filterMap (·.limit) ≠ [] := by
    obtain ⟨c, hc⟩ := List.exists_mem_of_ne_nil cs hsome
    obtain ⟨m, -, hm⟩ := h c hc
    exact List.ne_nil_of_mem (List.mem_filterMap.mpr ⟨c, hc, hm⟩)
  unfold cap
  rw [if_neg hall]
  cases hmax : (cs.filterMap (·.limit)).max? with
  | none => exact absurd (List.max?_eq_none_iff.mp hmax) hlimits
  | some k =>
      -- The contribution with the largest limit decides.
      obtain ⟨c, hc, hk⟩ := List.mem_filterMap.mp (List.max?_mem hmax)
      obtain ⟨m, hle, hm⟩ := h c hc
      exact ⟨k, Option.some.inj (hk.symm.trans hm) ▸ hle, rfl⟩

/-- A contribution whose limit is not nought keeps the limit of the bucket from being nought. -/
theorem cap_ne_zero {c : Contribution} (hc : c ∈ cs) (hlimit : c.limit ≠ some 0) :
    cap cs ≠ some 0 := by
  intro hzero
  obtain ⟨m, hle, hm⟩ := limit_le_cap hzero hc
  exact hlimit (by rw [hm, Nat.le_zero.mp hle])

end Contribution

/-! ### What a bucket shows -/

namespace Bucket

variable {b : Bucket} {origin : Nat} {options : List Suggestion} {limit : Option Nat}

/-- What is cut is one join of all contributions. -/
theorem options_eq (b : Bucket) :
    b.options = capped (Contribution.cap b.contributions)
      (Suggestion.joinDistinct [] (b.contributions.flatMap (·.options))) := by
  have hfold : ∀ (cs : List Contribution) (shown : List Suggestion),
      cs.foldl (fun shown c => Suggestion.joinDistinct shown c.options) shown
        = Suggestion.joinDistinct shown (cs.flatMap (·.options)) := by
    intro cs
    induction cs with
    | nil => intro shown; rfl
    | cons c rest ih =>
        intro shown
        rw [List.foldl_cons, ih, List.flatMap_cons, Suggestion.joinDistinct_append]
  rw [options, hfold]

@[simp] theorem title_contribute (b : Bucket) (origin : Nat) (options : List Suggestion)
    (limit : Option Nat) : (b.contribute origin options limit).title = b.title := rfl

/-- A contribution with suggestions and a limit other than nought is seen. -/
theorem isPlaceholder_contribute (b : Bucket) (origin : Nat) (hlimit : limit ≠ some 0)
    (hoptions : options ≠ []) : (b.contribute origin options limit).isPlaceholder = false := by
  obtain ⟨before, hmem⟩ := Contribution.exists_mem_insert origin options limit b.contributions
  set added := Contribution.after before origin options limit with hadded
  have hsome : added.options ≠ [] :=
    capped_ne_nil hlimit (Suggestion.joinDistinct_ne_nil (Or.inr hoptions))
  have hall : (b.contribute origin options limit).contributions.flatMap (·.options) ≠ [] := by
    intro hnil
    exact hsome (List.flatMap_eq_nil_iff.mp hnil added hmem)
  have hshown : (b.contribute origin options limit).options ≠ [] := by
    rw [options_eq]
    exact capped_ne_nil (Contribution.cap_ne_zero hmem hlimit)
      (Suggestion.joinDistinct_ne_nil (Or.inr hall))
  simpa [isPlaceholder] using hshown

/-- **Two definitions contribute to a bucket in either order.** -/
theorem contribute_comm {origin' : Nat} {options' : List Suggestion} {limit' : Option Nat}
    (h : origin ≠ origin') (b : Bucket) :
    (b.contribute origin' options' limit').contribute origin options limit
      = (b.contribute origin options limit).contribute origin' options' limit' := by
  show Bucket.mk _ _ _ = Bucket.mk _ _ _
  rw [contribute, contribute, Contribution.insert_comm h]

end Bucket

end QueryBar
