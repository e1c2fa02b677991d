/-
How often a row selects a source.

Where each matcher is a selection of its own, only how many there are matters.  Where `or`
groups count once, a matcher counts unless it joins the one before it, so that a row is
counted piece by piece once it is known what stands before each piece
(`selectionCount_append`).

A candidate may join a group at the end of the row and yet begin one at another place.  This
is the one case in which putting it there makes more selections than adding it at the end
(`selectionCount_put_le_iff`).
-/
import QueryBar.Row.Objection

namespace QueryBar.Row

variable {orGroups : Bool} {source : String} {before : Option Matcher} {m x : Matcher}
  {row xs ys : List Matcher} {i n : Nat}

/-- A matcher counts as a selection of a source unless it joins the one before it. -/
def counts (orGroups : Bool) (source : String) (before : Option Matcher) (m : Matcher) : Nat :=
  if m.source = source &&
      !(orGroups && m.operator == .or && before.any (·.source == source)) then 1 else 0

theorem selectionCount_cons : selectionCount orGroups source before (x :: xs) =
    counts orGroups source before x + selectionCount orGroups source (some x) xs := rfl

/-- What follows is counted by what stands before it. -/
theorem selectionCount_append : selectionCount orGroups source before (xs ++ ys) =
    selectionCount orGroups source before xs +
      selectionCount orGroups source (xs.getLast?.or before) ys := by
  induction xs generalizing before with
  | nil => simp [selectionCount]
  | cons x rest ih =>
      have hlast : (x :: rest).getLast?.or before = rest.getLast?.or (some x) := by
        rw [List.getLast?_cons]
        cases rest.getLast? <;> rfl
      rw [List.cons_append, selectionCount_cons, selectionCount_cons, ih, hlast, Nat.add_assoc]

theorem selectionCount_concat : selectionCount orGroups source none (row ++ [m]) =
    selectionCount orGroups source none row + counts orGroups source row.getLast? m := by
  rw [selectionCount_append, Option.or_none, selectionCount_cons]
  rfl

/-- Where there are no groups, each matcher of the source counts. -/
theorem selectionCount_eq_countP :
    selectionCount false source before row = row.countP (·.source == source) := by
  induction row generalizing before with
  | nil => rfl
  | cons x rest ih =>
      rw [selectionCount_cons, ih, List.countP_cons, Nat.add_comm]
      simp [counts]

/-! ### At the end, or elsewhere -/

/-- A candidate that joins a group at the end of the row, but begins one of its own before the
matcher at a place, and does not take the place of the one that began there. -/
def joinsOnlyAtEnd (orGroups : Bool) (row : List Matcher) (m : Matcher) (i : Nat) : Bool :=
  orGroups && m.operator == .or && row.getLast?.any (·.source == m.source) &&
    !(row.take i).getLast?.any (·.source == m.source) &&
    !row[i]?.any fun x => x.source == m.source && x.operator == .or

/-- Before another matcher, a candidate counts as it would at the end of what stands before it, and
what comes after may join it. -/
theorem selectionCount_put (hi : i < row.length) :
    selectionCount orGroups source none (row.take i ++ m :: row.drop i) +
        counts orGroups source (row.take i).getLast? row[i] =
      selectionCount orGroups source none row +
        counts orGroups source (row.take i).getLast? m +
        counts orGroups source (some m) row[i] := by
  have hrow : selectionCount orGroups source none row =
      selectionCount orGroups source none (row.take i ++ row[i] :: row.drop (i + 1)) := by
    rw [← List.drop_eq_getElem_cons hi, List.take_append_drop]
  rw [hrow, List.drop_eq_getElem_cons hi, selectionCount_append, selectionCount_append]
  simp only [selectionCount_cons, Option.or_none]
  omega

/-- At such a place the candidate begins a group, and the one after it goes on as it did. -/
theorem counts_of_joinsOnlyAtEnd (hi : i < row.length)
    (h : joinsOnlyAtEnd orGroups row m i = true) :
    counts orGroups m.source row.getLast? m = 0 ∧
      counts orGroups m.source (row.take i).getLast? m = 1 ∧
      counts orGroups m.source (some m) row[i] =
        counts orGroups m.source (row.take i).getLast? row[i] := by
  unfold joinsOnlyAtEnd at h
  rw [List.getElem?_eq_getElem hi, Option.any_some] at h
  simp only [Bool.and_eq_true, Bool.not_eq_true'] at h
  obtain ⟨⟨⟨⟨hgroups, hor⟩, hend⟩, hbefore⟩, hafter⟩ := h
  unfold counts
  refine ⟨by simp [hgroups, hor, hend], by simp [hbefore], ?_⟩
  rcases Bool.and_eq_false_iff.mp hafter with hother | hplain
  · simp [beq_eq_false_iff_ne.mp hother]
  · simp [hplain]

/-- At any other place it counts for no more than at the end: where it begins a group, either it
begins one at the end as well, or the one after it no longer does. -/
theorem counts_le_of_not_joinsOnlyAtEnd (hi : i < row.length)
    (h : joinsOnlyAtEnd orGroups row m i = false) :
    counts orGroups m.source (row.take i).getLast? m + counts orGroups m.source (some m) row[i] ≤
      counts orGroups m.source row.getLast? m +
        counts orGroups m.source (row.take i).getLast? row[i] := by
  unfold joinsOnlyAtEnd at h
  rw [List.getElem?_eq_getElem hi, Option.any_some] at h
  unfold counts
  generalize (row.take i).getLast?.any (·.source == m.source) = before at *
  generalize row.getLast?.any (·.source == m.source) = last at *
  rw [Option.any_some]
  grind

/-- **When a candidate that may join the end of the row may also be put elsewhere.** -/
theorem selectionCount_put_le_iff (hi : i < row.length)
    (hend : selectionCount orGroups m.source none (row ++ [m]) ≤ n) :
    selectionCount orGroups m.source none (row.take i ++ m :: row.drop i) ≤ n ↔
      ¬ (joinsOnlyAtEnd orGroups row m i = true ∧
        selectionCount orGroups m.source none row = n) := by
  have hput : selectionCount orGroups m.source none (row.take i ++ m :: row.drop i) + _ = _ :=
    selectionCount_put hi
  rw [selectionCount_concat] at hend
  cases hjoins : joinsOnlyAtEnd orGroups row m i with
  | true =>
      obtain ⟨hlast, hhere, hafter⟩ := counts_of_joinsOnlyAtEnd hi hjoins
      simp only [true_and]
      omega
  | false =>
      have hle := counts_le_of_not_joinsOnlyAtEnd hi hjoins
      refine iff_of_true (by omega) (by simp)

end QueryBar.Row
