/-
What can be said against a candidate once matchers have been taken out.

A source can be selected too often only because of what is in the row, so that taking matchers
out should never give rise to an objection.  Where `or` groups count once, this is not plain to
see: taking out the first matcher of a group makes the next one count that did not before, and
taking out what stands between two groups makes one of them.

One matcher at a time it is.  What stands before a row decides about its first matcher only,
and whatever a matcher may do to the one behind it, it makes up for by what it counts itself
(`selectionCount_le_cons`).  From there it is an induction over what is left of the row
(`selectionCount_le_of_sublist`).
-/
import QueryBar.Proofs.Row.Legal

namespace QueryBar.Row

variable {orGroups : Bool} {source : String} {before : Option Matcher} {m x : Matcher}
  {fewer row : List Matcher} {c : Config} {s : Source} {candidate : Matcher} {objection : String}

/-! ### How often a source is selected -/

/-- What stands before a matcher makes a difference of one at most. -/
theorem counts_le_one (orGroups : Bool) (source : String) (before : Option Matcher) (m : Matcher) :
    counts orGroups source before m ≤ 1 := by
  unfold counts
  split <;> omega

/-- A matcher that does not count leaves the one behind it at least what it was. -/
theorem counts_le_of_uncounted (h : counts orGroups source before x = 0) (m : Matcher) :
    counts orGroups source before m ≤ counts orGroups source (some x) m := by
  unfold counts at h ⊢
  simp only [Option.any_some]
  by_cases hx : x.source = source
  · -- It joins the one before it, so that the source was selected there already.
    have hjoins : (orGroups && x.operator == .or && before.any (·.source == source)) = true := by
      simpa [hx] using h
    simp only [Bool.and_eq_true] at hjoins
    simp [hx, hjoins.2]
  · have hother : (x.source == source) = false := by simpa using hx
    simp only [hother, Bool.and_false, Bool.not_false, Bool.and_true]
    split
    · rename_i hcounts
      rw [Bool.and_eq_true] at hcounts
      exact Nat.le_of_eq (if_pos hcounts.1).symm
    · exact Nat.zero_le _

/-- **Taking out the matcher in front makes no more selections.** -/
theorem selectionCount_le_cons (before : Option Matcher) (x : Matcher) (row : List Matcher) :
    selectionCount orGroups source before row ≤ selectionCount orGroups source before (x :: row) := by
  cases row with
  | nil => exact Nat.zero_le _
  | cons m rest =>
      rw [selectionCount_cons, selectionCount_cons (x := x), selectionCount_cons (x := m)]
      have hone := counts_le_one orGroups source before m
      by_cases hx : counts orGroups source before x = 0
      · have hbehind := counts_le_of_uncounted hx m
        omega
      · omega

/-- **A row from which matchers have been taken out selects no source more often**, whichever they
were. -/
theorem selectionCount_le_of_sublist (orGroups : Bool) (source : String) (before : Option Matcher)
    (h : fewer.Sublist row) :
    selectionCount orGroups source before fewer ≤ selectionCount orGroups source before row := by
  induction h generalizing before with
  | slnil => exact Nat.le_refl _
  | cons x _ ih => exact Nat.le_trans (ih before) (selectionCount_le_cons before x _)
  | cons_cons x _ ih =>
      rw [selectionCount_cons, selectionCount_cons]
      exact Nat.add_le_add_left (ih (some x)) _

/-! ### What is said against a candidate -/

/-- What a source says against a candidate when there are fewer matchers, it says when there are
all of them. -/
theorem sourceObjection?_of_fewer (hsub : fewer.Sublist row)
    (h : sourceObjection? c s candidate fewer none = some objection) :
    sourceObjection? c s candidate row none = some objection := by
  unfold sourceObjection? at h ⊢
  split
  · rename_i hillegal
    rwa [if_pos hillegal] at h
  · rename_i hlegal
    rw [if_neg hlegal] at h
    split
    · rename_i hsenseless
      rwa [if_pos hsenseless] at h
    · rename_i hsensible
      rw [if_neg hsensible] at h
      obtain ⟨limit, hlimit, hover⟩ := Option.bind_eq_some_iff.mp h
      rw [hlimit, Option.bind_some]
      dsimp only at hover ⊢
      split at hover
      · rename_i hexceeded
        have hresulting : (resulting candidate fewer none).Sublist (resulting candidate row none) :=
          hsub.append_right [candidate]
        have hle := selectionCount_le_of_sublist (countsGroups c) s.name none hresulting
        exact (if_pos (Nat.lt_of_lt_of_le hexceeded hle)).trans hover
      · contradiction

/-- **Taking matchers out gives rise to no objection**: what is said against a candidate then was
said before, in the same words. -/
theorem objection?_of_fewer (hsub : fewer.Sublist row)
    (h : objection? c candidate fewer none = some objection) :
    objection? c candidate row none = some objection := by
  unfold objection? at h ⊢
  split
  · rename_i hmark
    rw [if_pos hmark] at h
    contradiction
  · rename_i hterm
    rw [if_neg hterm] at h
    obtain ⟨s, hs, hobjection⟩ := Option.bind_eq_some_iff.mp h
    rw [hs, Option.bind_some]
    exact sourceObjection?_of_fewer hsub hobjection

/-- **A candidate that may join a row may join what is left of the row when matchers have been taken
out of it.** -/
theorem accepted_among_fewer (c : Config) (candidate : Matcher) {fewer row : List Matcher}
    (hsub : fewer.Sublist row) (haccepted : objection? c candidate row none = none) :
    objection? c candidate fewer none = none := by
  cases h : objection? c candidate fewer none with
  | none => rfl
  | some objection =>
      have hbefore := objection?_of_fewer hsub h
      rw [haccepted] at hbefore
      contradiction

/-- Colours joined by `or` are one selection, and there may be two selections of colours. -/
def twoColourGroups : Config :=
  { Config.ofSources
      [{ name := "colour", title := "Colours", comparisons := ["="], selectionLimit := some 2 },
       { name := "size", title := "Sizes", comparisons := ["="] }] with
    limitPolicy := .orGroup }

/-- The head of a group is taken out, and with it what stands between this group and the next. -/
theorem accepted_among_fewer_twoColourGroups :
    let term (source text : String) (operator : Operator) : Matcher :=
      ⟨text, operator, "=", source, .text text, text, false⟩
    let row := [term "colour" "red" .and, term "colour" "blue" .or, term "size" "small" .and,
      term "colour" "green" .or]
    let fewer := [term "colour" "blue" .or, term "colour" "green" .or]
    fewer.Sublist row ∧ selectionCount true "colour" none row = 2 ∧
      selectionCount true "colour" none fewer = 1 ∧
      objection? twoColourGroups (term "colour" "grey" .and) row none
        = some "Datasource (Colours) is limited to 2 items." ∧
      objection? twoColourGroups (term "colour" "grey" .or) row none = none ∧
      objection? twoColourGroups (term "colour" "grey" .or) fewer none = none := by
  intro term row fewer
  have hsub : fewer.Sublist row := by decide
  have haccepted : objection? twoColourGroups (term "colour" "grey" .or) row none = none := by
    decide
  exact ⟨hsub, by decide, by decide, by decide, haccepted,
    accepted_among_fewer twoColourGroups _ hsub haccepted⟩

end QueryBar.Row
