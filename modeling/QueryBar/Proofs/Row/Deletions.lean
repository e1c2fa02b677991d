/-
Brackets that have to go.

A row whose flagged brackets are taken out is balanced, and so is none from which fewer
comparisons have been taken out (`flagged_is_least_deletion`).

Read from the left, comparisons are balanced if they close every group that they open and no
other one.  `Settles n` says this where `n` groups are open to begin with, and has one rule for
each kind of comparison, so that it can be followed along a scan.  Those that wait in a scan are
such open groups: what a scan leaves unflagged closes those of them that it takes
(`exists_outcome`).

That fewer deletions will not do is a matter of counting.  A deletion changes the number of open
groups by one at most, and so it makes up for one flag at most (`length_unpaired_le`).
-/
import Mathlib.Data.Finset.Card
import Mathlib.Data.List.Sort
import Mathlib.Data.Nat.Dist
import QueryBar.Proofs.Row.Brackets

namespace QueryBar.Row

/-- The comparisons without those at some places. -/
def without (places : Finset Nat) (cs : List (Nat × String)) : List String :=
  (cs.filter (·.1 ∉ places)).map (·.2)

section Scan

variable {opening closing c : String} {n k : Nat} {cs group : List String}
  {rest : List (Nat × String)} {waiting : List Nat} {places : Finset Nat}

theorem without_of_mem (h : k ∈ places) : without places ((k, c) :: rest) = without places rest := by
  simp [without, h]

theorem without_of_not_mem (h : k ∉ places) :
    without places ((k, c) :: rest) = c :: without places rest := by
  simp [without, h]

/-! ### Open groups -/

/-- Where `n` groups are open, the comparisons close these and those that they open, and no
others. -/
inductive Settles (opening closing : String) : Nat → List String → Prop
  | nil : Settles opening closing 0 []
  | other {n : Nat} {c : String} {cs : List String} (hopening : c ≠ opening)
      (hclosing : c ≠ closing) (h : Settles opening closing n cs) :
      Settles opening closing n (c :: cs)
  | opening {n : Nat} {cs : List String} (h : Settles opening closing (n + 1) cs) :
      Settles opening closing n (opening :: cs)
  | closing {n : Nat} {cs : List String} (h : Settles opening closing n cs) :
      Settles opening closing (n + 1) (closing :: cs)

/-- Balanced comparisons with `n` closing brackets in between. -/
inductive Parted (opening closing : String) : Nat → List String → Prop
  | balanced {cs : List String} (h : Balanced opening closing cs) : Parted opening closing 0 cs
  | closing {n : Nat} {group cs : List String} (hgroup : Balanced opening closing group)
      (h : Parted opening closing n cs) :
      Parted opening closing (n + 1) (group ++ closing :: cs)

theorem Parted.prepend (hgroup : Balanced opening closing group)
    (h : Parted opening closing n cs) : Parted opening closing n (group ++ cs) := by
  cases h with
  | balanced h => exact .balanced (hgroup.append h)
  | closing hfirst h =>
      rw [← List.append_assoc]
      exact .closing (hgroup.append hfirst) h

theorem Settles.parted (h : Settles opening closing n cs) : Parted opening closing n cs := by
  induction h with
  | nil => exact .balanced .nil
  | other hopening hclosing _ ih => exact ih.prepend (.singleton hopening hclosing)
  | opening _ ih =>
      cases ih with
      | @closing _ group cs hgroup h =>
          -- The group that is opened ends with the first of the closing brackets.
          have hwhole := h.prepend hgroup.enclosed
          rw [List.cons_append, List.append_assoc, List.singleton_append] at hwhole
          exact hwhole
  | closing _ ih => exact .closing .nil ih

theorem Balanced.settles (h : Balanced opening closing group)
    (hrest : Settles opening closing n cs) : Settles opening closing n (group ++ cs) := by
  induction h generalizing n cs with
  | nil => exact hrest
  | other hopening hclosing _ ih => exact .other hopening hclosing (ih hrest)
  | group _ _ ihinner ihrest =>
      rw [List.cons_append, List.append_assoc, List.cons_append]
      exact .opening (ihinner (.closing (ihrest hrest)))

/-- Comparisons are balanced if nothing is open before and after them. -/
theorem balanced_iff_settles : Balanced opening closing cs ↔ Settles opening closing 0 cs := by
  constructor
  · intro h
    have hsettles := h.settles .nil
    rwa [List.append_nil] at hsettles
  · intro h
    cases h.parted with
    | balanced h => exact h

theorem settles_opening_iff (hne : opening ≠ closing) :
    Settles opening closing n (opening :: cs) ↔ Settles opening closing (n + 1) cs := by
  constructor
  · intro h
    cases h with
    | other hopening _ _ => exact absurd rfl hopening
    | opening h => exact h
    | closing _ => exact absurd rfl hne
  · exact .opening

theorem settles_closing_iff (hne : opening ≠ closing) :
    Settles opening closing n (closing :: cs) ↔ ∃ m, n = m + 1 ∧ Settles opening closing m cs := by
  constructor
  · intro h
    cases h with
    | other _ hclosing _ => exact absurd rfl hclosing
    | opening _ => exact absurd rfl hne
    | closing h => exact ⟨_, rfl, h⟩
  · rintro ⟨m, rfl, h⟩
    exact .closing h

theorem settles_other_iff (hopening : c ≠ opening) (hclosing : c ≠ closing) :
    Settles opening closing n (c :: cs) ↔ Settles opening closing n cs := by
  constructor
  · intro h
    cases h with
    | other _ _ h => exact h
    | opening _ => exact absurd rfl hopening
    | closing _ => exact absurd rfl hclosing
  · exact .other hopening hclosing

/-! ### What a scan leaves -/

/-- What comes of a scan: it flags closing brackets, then opening ones, and then those that still
wait; the `taken` others have got a partner. -/
structure Outcome (opening closing : String) (waiting : List Nat) (cs : List (Nat × String))
    (closings openings : List Nat) (taken : Nat) : Prop where
  taken_le : taken ≤ waiting.length
  flagged : unpaired opening closing waiting cs = closings ++ (openings ++ waiting.drop taken)
  /-- A closing bracket is flagged only where nothing waits any more. -/
  exhausted : closings ≠ [] → taken = waiting.length
  closings_mem : ∀ i ∈ closings, (i, closing) ∈ cs
  openings_mem : ∀ i ∈ openings, (i, opening) ∈ cs
  ascending : (closings ++ openings.reverse).Pairwise (· < ·)
  settles : ∀ places : Finset Nat, (∀ i ∈ cs.map (·.1), i ∈ places ↔ i ∈ closings ++ openings) →
    Settles opening closing taken (without places cs)

variable {closings openings : List Nat} {taken : Nat}

namespace Outcome

/-- What is flagged is numbered in the comparisons. -/
theorem mem_numbers (h : Outcome opening closing waiting rest closings openings taken) {i : Nat}
    (hi : i ∈ closings ++ openings) : i ∈ rest.map (·.1) := by
  rcases List.mem_append.mp hi with hi | hi
  · exact List.mem_map_of_mem (h.closings_mem i hi)
  · exact List.mem_map_of_mem (h.openings_mem i hi)

theorem not_mem_of_first (h : Outcome opening closing waiting rest closings openings taken)
    (hfirst : ∀ i ∈ rest.map (·.1), k < i) : k ∉ closings ++ openings :=
  fun hk => absurd (hfirst k (h.mem_numbers hk)) (Nat.lt_irrefl k)

/-- Where a comparison in front is left, so is what has been left of the others. -/
theorem settles_rest (h : Outcome opening closing waiting rest closings openings taken)
    (hplaces : ∀ i ∈ ((k, c) :: rest).map (·.1), i ∈ places ↔ i ∈ closings ++ openings) :
    Settles opening closing taken (without places rest) :=
  h.settles places fun i hi => hplaces i (List.mem_cons_of_mem _ hi)

theorem without_first (h : Outcome opening closing waiting rest closings openings taken)
    (hfirst : ∀ i ∈ rest.map (·.1), k < i)
    (hplaces : ∀ i ∈ ((k, c) :: rest).map (·.1), i ∈ places ↔ i ∈ closings ++ openings) :
    without places ((k, c) :: rest) = c :: without places rest :=
  without_of_not_mem (mt (hplaces k List.mem_cons_self).mp (h.not_mem_of_first hfirst))

/-- What is no bracket is looked through. -/
theorem other (h : Outcome opening closing waiting rest closings openings taken)
    (hfirst : ∀ i ∈ rest.map (·.1), k < i) (hopening : c ≠ opening) (hclosing : c ≠ closing) :
    Outcome opening closing waiting ((k, c) :: rest) closings openings taken where
  taken_le := h.taken_le
  flagged := by rw [unpaired_other hopening hclosing, h.flagged]
  exhausted := h.exhausted
  closings_mem i hi := List.mem_cons_of_mem _ (h.closings_mem i hi)
  openings_mem i hi := List.mem_cons_of_mem _ (h.openings_mem i hi)
  ascending := h.ascending
  settles places hplaces := by
    rw [h.without_first hfirst hplaces]
    exact .other hopening hclosing (h.settles_rest hplaces)

/-- An opening bracket that is taken opens a group. -/
theorem opened (h : Outcome opening closing (k :: waiting) rest closings openings (taken + 1))
    (hfirst : ∀ i ∈ rest.map (·.1), k < i) :
    Outcome opening closing waiting ((k, opening) :: rest) closings openings taken where
  taken_le := Nat.le_of_succ_le_succ h.taken_le
  flagged := by rw [unpaired_opening, h.flagged, List.drop_succ_cons]
  exhausted hclosings := Nat.succ.inj (h.exhausted hclosings)
  closings_mem i hi := List.mem_cons_of_mem _ (h.closings_mem i hi)
  openings_mem i hi := List.mem_cons_of_mem _ (h.openings_mem i hi)
  ascending := h.ascending
  settles places hplaces := by
    rw [h.without_first hfirst hplaces]
    exact .opening (h.settles_rest hplaces)

/-- An opening bracket that is not taken is flagged, and no closing one has been. -/
theorem left (h : Outcome opening closing (k :: waiting) rest closings openings 0)
    (hfirst : ∀ i ∈ rest.map (·.1), k < i) :
    Outcome opening closing waiting ((k, opening) :: rest) [] (openings ++ [k]) 0 := by
  have hnone : closings = [] := not_not.mp fun hclosings => by
    have htaken := h.exhausted hclosings
    simp at htaken
  subst hnone
  refine ⟨Nat.zero_le _, ?_, by simp, by simp, ?_, ?_, ?_⟩
  · rw [unpaired_opening, h.flagged]
    simp
  · intro i hi
    rcases List.mem_append.mp hi with hi | hi
    · exact List.mem_cons_of_mem _ (h.openings_mem i hi)
    · obtain rfl := List.mem_singleton.mp hi
      exact List.mem_cons_self
  · rw [List.nil_append, List.reverse_append, List.reverse_singleton, List.singleton_append,
      List.pairwise_cons]
    exact ⟨fun i hi => hfirst i (h.mem_numbers (List.mem_reverse.mp hi)), h.ascending⟩
  · intro places hplaces
    rw [without_of_mem ((hplaces k List.mem_cons_self).mpr (by simp))]
    refine h.settles places fun i hi => ?_
    have hlater := hfirst i hi
    rw [hplaces i (List.mem_cons_of_mem _ hi)]
    simp only [List.nil_append, List.mem_append, List.mem_singleton]
    exact or_iff_left (by omega)

/-- A closing bracket takes the partner that has waited least. -/
theorem closed (h : Outcome opening closing waiting rest closings openings taken)
    (hne : opening ≠ closing) (hfirst : ∀ i ∈ rest.map (·.1), k < i) (w : Nat) :
    Outcome opening closing (w :: waiting) ((k, closing) :: rest) closings openings
      (taken + 1) where
  taken_le := Nat.succ_le_succ h.taken_le
  flagged := by rw [unpaired_closing hne, h.flagged, List.drop_succ_cons]
  exhausted hclosings := congrArg Nat.succ (h.exhausted hclosings)
  closings_mem i hi := List.mem_cons_of_mem _ (h.closings_mem i hi)
  openings_mem i hi := List.mem_cons_of_mem _ (h.openings_mem i hi)
  ascending := h.ascending
  settles places hplaces := by
    rw [h.without_first hfirst hplaces]
    exact .closing (h.settles_rest hplaces)

/-- Where nothing waits, a closing bracket is flagged. -/
theorem unopened (h : Outcome opening closing [] rest closings openings taken)
    (hne : opening ≠ closing) (hfirst : ∀ i ∈ rest.map (·.1), k < i) :
    Outcome opening closing [] ((k, closing) :: rest) (k :: closings) openings taken where
  taken_le := h.taken_le
  flagged := by rw [unpaired_closing_nil hne, h.flagged, List.cons_append]
  exhausted _ := Nat.le_zero.mp h.taken_le
  closings_mem i hi := by
    rcases List.mem_cons.mp hi with rfl | hi
    · exact List.mem_cons_self
    · exact List.mem_cons_of_mem _ (h.closings_mem i hi)
  openings_mem i hi := List.mem_cons_of_mem _ (h.openings_mem i hi)
  ascending := by
    refine List.pairwise_cons.mpr ⟨fun i hi => hfirst i (h.mem_numbers ?_), h.ascending⟩
    simpa using hi
  settles places hplaces := by
    rw [without_of_mem ((hplaces k List.mem_cons_self).mpr (by simp))]
    refine h.settles places fun i hi => ?_
    have hlater := hfirst i hi
    rw [hplaces i (List.mem_cons_of_mem _ hi), List.cons_append, List.mem_cons]
    exact or_iff_right (by omega)

end Outcome

/-- **What a scan leaves unflagged closes the groups whose brackets it takes.** -/
theorem exists_outcome (hne : opening ≠ closing) (waiting : List Nat) {cs : List (Nat × String)}
    (hnumbers : (cs.map (·.1)).Pairwise (· < ·)) :
    ∃ closings openings taken, Outcome opening closing waiting cs closings openings taken := by
  induction cs generalizing waiting with
  | nil =>
      exact ⟨[], [], 0, Nat.zero_le _, by simp [unpaired], by simp, by simp, by simp, by simp,
        fun _ _ => .nil⟩
  | cons entry rest ih =>
      obtain ⟨k, c⟩ := entry
      obtain ⟨hfirst, hrest⟩ := List.pairwise_cons.mp hnumbers
      by_cases hopening : c = opening
      · subst hopening
        obtain ⟨closings, openings, taken, h⟩ := ih (k :: waiting) hrest
        cases taken with
        | zero => exact ⟨_, _, _, h.left hfirst⟩
        | succ taken => exact ⟨_, _, _, h.opened hfirst⟩
      · by_cases hclosing : c = closing
        · subst hclosing
          cases waiting with
          | nil =>
              obtain ⟨closings, openings, taken, h⟩ := ih [] hrest
              exact ⟨_, _, _, h.unopened hne hfirst⟩
          | cons w waiting =>
              obtain ⟨closings, openings, taken, h⟩ := ih waiting hrest
              exact ⟨_, _, _, h.closed hne hfirst w⟩
        · obtain ⟨closings, openings, taken, h⟩ := ih waiting hrest
          exact ⟨_, _, _, h.other hfirst hopening hclosing⟩

/-! ### No fewer will do -/

/-- A comparison flags a bracket or makes a difference of one to those that wait, or neither.  It
does no more to what waits than to the groups that are open, where it is left. -/
theorem exists_unpaired_cons (hne : opening ≠ closing) (waiting : List Nat) (k : Nat) (c : String) :
    ∃ flagged waiting' : List Nat,
      (∀ rest, unpaired opening closing waiting ((k, c) :: rest) =
        flagged ++ unpaired opening closing waiting' rest) ∧
      flagged.length + Nat.dist waiting'.length waiting.length ≤ 1 ∧
      ∀ n cs, Settles opening closing n (c :: cs) → ∃ m, Settles opening closing m cs ∧
        flagged.length + Nat.dist waiting'.length m ≤ Nat.dist waiting.length n := by
  simp only [Nat.dist]
  by_cases hopening : c = opening
  · subst hopening
    refine ⟨[], k :: waiting, fun rest => unpaired_opening, by simp, fun n cs h => ?_⟩
    refine ⟨n + 1, (settles_opening_iff hne).mp h, ?_⟩
    rw [List.length_nil, List.length_cons]
    omega
  · by_cases hclosing : c = closing
    · subst hclosing
      cases waiting with
      | nil =>
          refine ⟨[k], [], fun rest => unpaired_closing_nil hne, by simp, fun n cs h => ?_⟩
          obtain ⟨m, rfl, hrest⟩ := (settles_closing_iff hne).mp h
          refine ⟨m, hrest, ?_⟩
          rw [List.length_singleton, List.length_nil]
          omega
      | cons w waiting =>
          refine ⟨[], waiting, fun rest => unpaired_closing hne, by simp, fun n cs h => ?_⟩
          obtain ⟨m, rfl, hrest⟩ := (settles_closing_iff hne).mp h
          refine ⟨m, hrest, ?_⟩
          rw [List.length_nil, List.length_cons]
          omega
    · refine ⟨[], waiting, fun rest => unpaired_other hopening hclosing, by simp, fun n cs h => ?_⟩
      exact ⟨n, (settles_other_iff hopening hclosing).mp h, by simp⟩

/-- **A scan flags no more brackets than have to go.**  Where other groups are open than those that
wait, the difference counts like deletions. -/
theorem length_unpaired_le (hne : opening ≠ closing) {cs : List (Nat × String)}
    (h : Settles opening closing n (without places cs)) :
    (unpaired opening closing waiting cs).length ≤
      Nat.dist waiting.length n + cs.countP (·.1 ∈ places) := by
  induction cs generalizing waiting n with
  | nil =>
      have hnone : n = 0 := by cases h; rfl
      rw [hnone, Nat.dist_zero_right]
      exact Nat.le_refl _
  | cons entry rest ih =>
      obtain ⟨k, c⟩ := entry
      obtain ⟨flagged, waiting', hscan, hone, hleft⟩ := exists_unpaired_cons hne waiting k c
      rw [hscan, List.length_append]
      by_cases hgone : k ∈ places
      · -- The deletion makes up for what the comparison does to the scan.
        rw [without_of_mem hgone] at h
        rw [List.countP_cons_of_pos (by simpa using hgone)]
        have hlater : (unpaired opening closing waiting' rest).length ≤
            Nat.dist waiting'.length n + rest.countP (·.1 ∈ places) := ih h
        have hfar := Nat.dist.triangle_inequality waiting'.length waiting.length n
        omega
      · rw [without_of_not_mem hgone] at h
        rw [List.countP_cons_of_neg (by simpa using hgone)]
        obtain ⟨m, hrest, hnear⟩ := hleft n _ h
        have hlater : (unpaired opening closing waiting' rest).length ≤
            Nat.dist waiting'.length m + rest.countP (·.1 ∈ places) := ih hrest
        omega

end Scan

/-! ### The row -/

variable {comparisons : List String}

theorem ascending_numbered (comparisons : List String) :
    ((numbered comparisons).map (·.1)).Pairwise (· < ·) := by
  rw [map_fst_numbered]
  exact List.pairwise_lt_range

/-- No more comparisons are deleted than there are places to delete. -/
theorem countP_numbered_le (comparisons : List String) (places : Finset Nat) :
    (numbered comparisons).countP (·.1 ∈ places) ≤ places.card := by
  have hdeleted : (((numbered comparisons).filter (·.1 ∈ places)).map (·.1)).Nodup :=
    (nodup_numbered comparisons).sublist (List.filter_sublist.map _)
  rw [List.countP_eq_length_filter, ← List.length_map, ← List.toFinset_card_of_nodup hdeleted]
  refine Finset.card_le_card fun i hi => ?_
  obtain ⟨entry, hentry, rfl⟩ := List.mem_map.mp (List.mem_toFinset.mp hi)
  exact of_decide_eq_true (List.mem_filter.mp hentry).2

/-- What is flagged in a row is what one scan flags. -/
theorem mem_unbalanced_iff {i : Nat} : i ∈ unbalanced comparisons ↔
    i ∈ unpaired Bracket.opening.symbol Bracket.closing.symbol [] (numbered comparisons) := by
  show i ∈ List.foldr insertIndex [] (unpaired _ _ [] (numbered comparisons) ++
    unpaired _ _ [] (numbered comparisons).reverse) ↔ _
  rw [mem_foldr_insertIndex, List.mem_append,
    mem_unpaired_reverse_iff (by decide) (nodup_numbered comparisons), or_self]

/-- The flags in order: closing brackets, and then opening ones. -/
theorem exists_unbalanced_eq (comparisons : List String) :
    ∃ closings openings : List Nat,
      Outcome Bracket.opening.symbol Bracket.closing.symbol [] (numbered comparisons) closings
        openings 0 ∧
      unbalanced comparisons = closings ++ openings.reverse := by
  have hne : Bracket.opening.symbol ≠ Bracket.closing.symbol := by decide
  obtain ⟨closings, openings, taken, h⟩ := exists_outcome hne [] (ascending_numbered comparisons)
  obtain rfl := Nat.le_zero.mp h.taken_le
  refine ⟨closings, openings, h, ?_⟩
  have hascending : (unbalanced comparisons).Pairwise (· < ·) := ascending_foldr_insertIndex _
  refine hascending.eq_of_mem_iff h.ascending fun i => ?_
  rw [mem_unbalanced_iff, h.flagged]
  simp

/-- **What is flagged is the least that has to go.**  Without the flagged brackets the row is
balanced; in order they are closing brackets followed by opening ones; and wherever the row is
balanced without the comparisons at some places, these are no fewer than the flagged ones. -/
theorem flagged_is_least_deletion (comparisons : List String) :
    Balanced Bracket.opening.symbol Bracket.closing.symbol
      (without (unbalanced comparisons).toFinset (numbered comparisons)) ∧
    (∃ closings openings : Nat, (unbalanced comparisons).map (comparisons[·]?) =
      List.replicate closings (some Bracket.closing.symbol) ++
        List.replicate openings (some Bracket.opening.symbol)) ∧
    ∀ places : Finset Nat,
      Balanced Bracket.opening.symbol Bracket.closing.symbol
        (without places (numbered comparisons)) →
      (unbalanced comparisons).length ≤ places.card := by
  obtain ⟨closings, openings, h, hflags⟩ := exists_unbalanced_eq comparisons
  refine ⟨?_, ⟨closings.length, openings.length, ?_⟩, fun places hbalanced => ?_⟩
  · refine balanced_iff_settles.mpr (h.settles _ fun i _ => ?_)
    rw [List.mem_toFinset, hflags, List.mem_append, List.mem_append, List.mem_reverse]
  · rw [hflags, List.map_append]
    congr 1
    · refine List.eq_replicate_iff.mpr ⟨List.length_map _, fun c hc => ?_⟩
      obtain ⟨i, hi, rfl⟩ := List.mem_map.mp hc
      exact mem_numbered_iff.mp (h.closings_mem i hi)
    · refine List.eq_replicate_iff.mpr ⟨by simp, fun c hc => ?_⟩
      obtain ⟨i, hi, rfl⟩ := List.mem_map.mp hc
      exact mem_numbered_iff.mp (h.openings_mem i (List.mem_reverse.mp hi))
  · have hne : Bracket.opening.symbol ≠ Bracket.closing.symbol := by decide
    calc (unbalanced comparisons).length
        = (unpaired Bracket.opening.symbol Bracket.closing.symbol []
            (numbered comparisons)).length := by rw [hflags, h.flagged]; simp
      _ ≤ Nat.dist 0 0 + (numbered comparisons).countP (·.1 ∈ places) :=
          length_unpaired_le hne (balanced_iff_settles.mp hbalanced)
      _ = (numbered comparisons).countP (·.1 ∈ places) := by rw [Nat.dist_self, Nat.zero_add]
      _ ≤ places.card := countP_numbered_le comparisons places

end QueryBar.Row
