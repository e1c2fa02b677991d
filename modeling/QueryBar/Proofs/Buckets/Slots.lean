/-
Where the slots of buckets are.

Every bucket takes up at least one slot, so that there is a slot to stop on as soon as there
is a bucket, and each category starts at a slot of its own.  A page that is turned therefore
leads to a slot that exists.
-/
import QueryBar.Buckets.Slots

namespace QueryBar

/-- Whoever goes round stays among the places. -/
theorem Cycle.go_lt {n i : Nat} (h : i < n) (forward : Bool) : go forward n i < n := by
  unfold go next previous
  cases forward with
  | true =>
      rw [if_pos rfl]
      split <;> omega
  | false =>
      rw [if_neg Bool.false_ne_true]
      split <;> omega

theorem Bucket.slotCount_pos (b : Bucket) : 0 < b.slotCount := Nat.le_max_right b.options.length 1

namespace Buckets

variable {bs : Buckets} {slot : Nat}

theorem total_cons (b : Bucket) (bs : Buckets) : total (b :: bs) = b.slotCount + bs.total := rfl

/-- There is a slot as soon as there is a bucket. -/
theorem total_pos_iff : 0 < bs.total ↔ bs ≠ [] := by
  cases bs with
  | nil => exact iff_of_false (Nat.lt_irrefl 0) (fun h => h rfl)
  | cons b rest =>
      have hslot := b.slotCount_pos
      refine iff_of_true ?_ (List.cons_ne_nil b rest)
      rw [total_cons]
      omega

/-- Each category starts at a slot that exists. -/
theorem firstSlot_lt {place : Nat} (h : place < bs.length) : bs.firstSlot place < bs.total := by
  unfold firstSlot
  induction bs generalizing place with
  | nil => contradiction
  | cons b rest ih =>
      cases place with
      | zero => exact total_pos_iff.mpr (List.cons_ne_nil b rest)
      | succ place =>
          have hrest := ih (Nat.lt_of_succ_lt_succ h)
          rw [List.take_succ_cons, total_cons, total_cons]
          omega

theorem lt_of_placeOf? {place : Nat} (h : bs.placeOf? slot = some place) : place < bs.length := by
  induction bs generalizing slot place with
  | nil => contradiction
  | cons b rest ih =>
      unfold placeOf? at h
      split at h
      · obtain rfl := Option.some.inj h
        exact Nat.zero_lt_succ _
      · obtain ⟨before, hbefore, rfl⟩ := Option.map_eq_some_iff.mp h
        exact Nat.succ_lt_succ (ih hbefore)

/-- **A page that is turned leads to a slot that exists.** -/
theorem turnPage_lt (h : 0 < bs.total) (slot : Nat) (forward : Bool) :
    bs.turnPage slot forward < bs.total := by
  have hlength : 0 < bs.length := List.length_pos_iff.mpr (total_pos_iff.mp h)
  refine firstSlot_lt (Cycle.go_lt ?_ forward)
  cases hplace : bs.placeOf? slot with
  | none =>
      rw [Option.getD_none]
      omega
  | some place => exact lt_of_placeOf? hplace

end Buckets

end QueryBar
