/-
What stands on which slot, and where pages lead.

`Buckets.slots` lists the slots one after the other, each with its category and its number
there.  The three ways of finding something by its slot or a slot by its category each add up
sizes on their own; all of them come to what this list says: what stands on a slot
(`get?_eq`), which category it lies in (`placeOf?_eq`) and where that begins
(`slots_firstSlot`).

Turning pages is going round the categories, and going round is counting modulo how many there
are (`Cycle.next_eq_mod`).  So as many pages as there are categories lead through all of them and
back.
-/
import Mathlib.Data.Nat.ModEq
import Mathlib.Logic.Function.Iterate
import QueryBar.Proofs.Buckets.Slots

namespace QueryBar

/-! ### Going round -/

namespace Cycle

variable {n i : Nat}

theorem next_eq_mod (h : i < n) : next n i = (i + 1) % n := by
  unfold next
  split
  · rename_i hinner
    exact (Nat.mod_eq_of_lt hinner).symm
  · have hlast : i + 1 = n := by omega
    rw [hlast, Nat.mod_self]

theorem previous_eq_mod (h : i < n) : previous n i = (i + n - 1) % n := by
  unfold previous
  split
  · rename_i hpos
    have hround : i + n - 1 = i - 1 + n := by omega
    rw [hround, Nat.add_mod_right, Nat.mod_eq_of_lt (by omega)]
  · have hfirst : i + n - 1 = n - 1 := by omega
    rw [hfirst, Nat.mod_eq_of_lt (by omega)]

/-- One back undoes one ahead. -/
theorem previous_next (h : i < n) : previous n (next n i) = i := by
  unfold next
  split
  · rfl
  · rename_i hlast
    show n - 1 = i
    omega

/-- Every place is come to once in going round. -/
theorem existsUnique_steps {j : Nat} (hi : i < n) (hj : j < n) :
    ∃! steps, steps < n ∧ (i + steps) % n = j := by
  have hsteps : (j + n - i) % n < n := Nat.mod_lt _ (by omega)
  have hcome : (i + (j + n - i) % n) % n = j := by
    rw [Nat.add_mod_mod, show i + (j + n - i) = j + n by omega, Nat.add_mod_right,
      Nat.mod_eq_of_lt hj]
  refine ⟨_, ⟨hsteps, hcome⟩, ?_⟩
  rintro steps ⟨hlt, heq⟩
  have hsame : i + steps ≡ i + (j + n - i) % n [MOD n] := heq.trans hcome.symm
  exact (Nat.ModEq.add_left_cancel' i hsame).eq_of_lt_of_lt hlt hsteps

end Cycle

/-! ### All slots -/

/-- What stands on the slots of a bucket: its suggestions, or nothing on a slot of its own. -/
def Bucket.row (b : Bucket) : List (Option Suggestion) :=
  if b.isPlaceholder then [none] else b.options.map some

theorem Bucket.length_row (b : Bucket) : b.row.length = b.slotCount := by
  unfold row slotCount isPlaceholder
  cases b.options with
  | nil => rfl
  | cons o rest => simp

theorem Bucket.getElem?_row {b : Bucket} {k : Nat} (h : k < b.slotCount) :
    b.row[k]? = some b.options[k]? := by
  unfold slotCount at h
  unfold row isPlaceholder
  cases hoptions : b.options with
  | nil =>
      rw [hoptions] at h
      obtain rfl : k = 0 := by simpa using h
      rfl
  | cons o rest =>
      have hk : k < (o :: rest).length := by
        rw [hoptions] at h
        simpa using h
      simp only [List.isEmpty_cons, Bool.false_eq_true, if_false, List.getElem?_map,
        List.getElem?_eq_getElem hk, Option.map_some]

namespace Buckets

variable {bs : Buckets} {slot place k : Nat}

/-- All slots in order: of each, the place of its category and its number there. -/
def slots (bs : Buckets) : List (Nat × Nat) :=
  bs.zipIdx.flatMap fun (b, place) => (List.range b.slotCount).map fun k => (place, k)

theorem slots_cons (b : Bucket) (bs : Buckets) :
    slots (b :: bs) = (List.range b.slotCount).map (fun k => (0, k))
      ++ (slots bs).map fun p => (p.1 + 1, p.2) := by
  unfold slots
  rw [List.zipIdx_cons, List.flatMap_cons, List.zipIdx_succ, List.flatMap_map, List.map_flatMap]
  simp only [List.map_map]
  rfl

/-- The slots of the first category come first. -/
theorem getElem?_slots_of_lt {b : Bucket} (h : slot < b.slotCount) :
    (slots (b :: bs))[slot]? = some (0, slot) := by
  rw [slots_cons, List.getElem?_append_left (by simpa using h)]
  simp [h]

/-- Behind them come those of the others. -/
theorem getElem?_slots_of_le {b : Bucket} (h : b.slotCount ≤ slot) :
    (slots (b :: bs))[slot]?
      = (bs.slots[slot - b.slotCount]?).map fun p => (p.1 + 1, p.2) := by
  rw [slots_cons, List.getElem?_append_right (by simpa using h)]
  simp

theorem length_slots (bs : Buckets) : bs.slots.length = bs.total := by
  induction bs with
  | nil => rfl
  | cons b rest ih => simp [slots_cons, total_cons, ih]

theorem lt_total_iff : slot < bs.total ↔ ∃ place k, bs.slots[slot]? = some (place, k) := by
  rw [← length_slots]
  constructor
  · intro h
    exact ⟨_, _, List.getElem?_eq_getElem h⟩
  · rintro ⟨place, k, h⟩
    exact (List.getElem?_eq_some_iff.mp h).1

/-- A slot is one of a category. -/
theorem of_getElem?_slots (h : bs.slots[slot]? = some (place, k)) :
    ∃ b, bs[place]? = some b ∧ k < b.slotCount ∧ slot = bs.firstSlot place + k := by
  induction bs generalizing slot place with
  | nil => simp [slots] at h
  | cons b rest ih =>
      by_cases hslot : slot < b.slotCount
      · rw [getElem?_slots_of_lt hslot] at h
        obtain ⟨rfl, rfl⟩ := Prod.mk.inj (Option.some.inj h)
        exact ⟨b, rfl, hslot, by simp [firstSlot, total]⟩
      · rw [getElem?_slots_of_le (Nat.le_of_not_lt hslot)] at h
        obtain ⟨⟨before, k'⟩, hbefore, heq⟩ := Option.map_eq_some_iff.mp h
        obtain ⟨rfl, rfl⟩ := Prod.mk.inj heq
        obtain ⟨a, ha, hk, hfirst⟩ := ih hbefore
        refine ⟨a, ha, hk, ?_⟩
        show slot = total (b :: rest.take before) + k'
        rw [total_cons]
        unfold firstSlot at hfirst
        omega

/-! ### Finding something by its slot -/

/-- **The category of a slot is found by its place.** -/
theorem placeOf?_eq (bs : Buckets) (slot : Nat) :
    bs.placeOf? slot = (bs.slots[slot]?).map Prod.fst := by
  induction bs generalizing slot with
  | nil => rfl
  | cons b rest ih =>
      unfold placeOf?
      split
      · rename_i hslot
        rw [getElem?_slots_of_lt hslot]
        rfl
      · rename_i hslot
        rw [getElem?_slots_of_le (Nat.le_of_not_lt hslot), ih, Option.map_map, Option.map_map]
        rfl

/-- **What stands on a slot is the suggestion of its category with its number.** -/
theorem get?_eq (bs : Buckets) (slot : Nat) :
    bs.get? slot = (bs.slots[slot]?).bind fun p => bs[p.1]?.bind (·.options[p.2]?) := by
  induction bs generalizing slot with
  | nil => rfl
  | cons b rest ih =>
      unfold get?
      split
      · rename_i hslot
        rw [getElem?_slots_of_lt hslot]
        rfl
      · rename_i hslot
        rw [getElem?_slots_of_le (Nat.le_of_not_lt hslot), ih, Option.bind_map]
        rfl

/-- **A category begins with its first slot.** -/
theorem slots_firstSlot (h : place < bs.length) :
    bs.slots[bs.firstSlot place]? = some (place, 0) := by
  induction bs generalizing place with
  | nil => contradiction
  | cons b rest ih =>
      cases place with
      | zero => exact getElem?_slots_of_lt b.slotCount_pos
      | succ place =>
          have hrest := ih (Nat.lt_of_succ_lt_succ h)
          have hfirst : firstSlot (b :: rest) (place + 1) = b.slotCount + firstSlot rest place := rfl
          rw [hfirst, getElem?_slots_of_le (Nat.le_add_right ..), Nat.add_sub_cancel_left, hrest]
          rfl

/-- Side by side, the slots show the rows of all buckets. -/
theorem getElem?_flatMap_row (bs : Buckets) (slot : Nat) :
    (bs.flatMap Bucket.row)[slot]? = if slot < bs.total then some (bs.get? slot) else none := by
  induction bs generalizing slot with
  | nil => rfl
  | cons b rest ih =>
      rw [List.flatMap_cons, total_cons]
      unfold get?
      by_cases hslot : slot < b.slotCount
      · rw [List.getElem?_append_left (b.length_row ▸ hslot), Bucket.getElem?_row hslot,
          if_pos (by omega), if_pos hslot]
      · rw [List.getElem?_append_right (b.length_row ▸ Nat.le_of_not_lt hslot), b.length_row, ih,
          if_neg hslot]
        by_cases htotal : slot - b.slotCount < total rest
        · rw [if_pos htotal, if_pos (by omega)]
        · rw [if_neg htotal, if_neg (by omega)]

/-- The slots show every suggestion once and in order, and nothing where a lookup is awaited. -/
theorem map_get?_range (bs : Buckets) :
    (List.range bs.total).map bs.get? = bs.flatMap Bucket.row := by
  refine List.ext_getElem? ?_
  intro slot
  rw [getElem?_flatMap_row, List.getElem?_map]
  by_cases hslot : slot < bs.total
  · simp [hslot]
  · simp [hslot]

/-- **Nothing stands on the slot of a placeholder and behind the last slot, and nowhere else.** -/
theorem get?_eq_none_iff : bs.get? slot = none ↔ bs.total ≤ slot ∨
    ∃ place b, bs[place]? = some b ∧ b.isPlaceholder = true ∧
      bs.slots[slot]? = some (place, 0) := by
  rw [get?_eq]
  constructor
  · intro hnone
    cases hslot : bs.slots[slot]? with
    | none => exact Or.inl (by simpa [length_slots] using hslot)
    | some p =>
        obtain ⟨place, k⟩ := p
        obtain ⟨b, hb, hk, -⟩ := of_getElem?_slots hslot
        rw [hslot, Option.bind_some, hb, Option.bind_some] at hnone
        have hfew : b.options.length ≤ k := List.getElem?_eq_none_iff.mp hnone
        have hempty : b.options = [] ∧ k = 0 := by
          unfold Bucket.slotCount at hk
          have hlength : b.options.length = 0 := by omega
          exact ⟨List.length_eq_zero_iff.mp hlength, by omega⟩
        refine Or.inr ⟨place, b, hb, ?_, by rw [hempty.2]⟩
        simp [Bucket.isPlaceholder, hempty.1]
  · rintro (hbehind | ⟨place, b, hb, hempty, hslot⟩)
    · rw [List.getElem?_eq_none (length_slots bs ▸ hbehind)]
      rfl
    · have hoptions : b.options = [] := by simpa [Bucket.isPlaceholder] using hempty
      rw [hslot, Option.bind_some, hb, Option.bind_some, hoptions]
      rfl

/-! ### Turning pages -/

/-- A page that is turned from a slot leads to the first slot of the category beside its own. -/
theorem turnPage_eq (h : bs.slots[slot]? = some (place, k)) (forward : Bool) :
    bs.turnPage slot forward = bs.firstSlot (Cycle.go forward bs.length place) := by
  unfold turnPage
  rw [placeOf?_eq, h]
  rfl

/-- **A page that is turned from a slot leads to where the category beside its own begins.** -/
theorem slots_turnPage (h : bs.slots[slot]? = some (place, k)) (forward : Bool) :
    bs.slots[bs.turnPage slot forward]? = some (Cycle.go forward bs.length place, 0) := by
  obtain ⟨b, hb, -, -⟩ := of_getElem?_slots h
  have hplace : place < bs.length := (List.getElem?_eq_some_iff.mp hb).1
  rw [turnPage_eq h]
  exact slots_firstSlot (Cycle.go_lt hplace forward)

/-- Pages that are turned one after the other lead round the categories. -/
theorem slots_iterate_turnPage (h : bs.slots[slot]? = some (place, 0)) (pages : Nat) :
    bs.slots[(bs.turnPage · true)^[pages] slot]? = some ((place + pages) % bs.length, 0) := by
  obtain ⟨b, hb, -, -⟩ := of_getElem?_slots h
  have hplace : place < bs.length := (List.getElem?_eq_some_iff.mp hb).1
  induction pages with
  | zero =>
      rw [Nat.add_zero, Nat.mod_eq_of_lt hplace]
      exact h
  | succ pages ih =>
      have hlt : (place + pages) % bs.length < bs.length := Nat.mod_lt _ (by omega)
      rw [Function.iterate_succ_apply', slots_turnPage ih true]
      show some (Cycle.next bs.length _, 0) = _
      rw [Cycle.next_eq_mod hlt, Nat.mod_add_mod, Nat.add_assoc]

/-- **The slots cover the buckets exactly, and pages lead round them.**  Slot by slot they show every
suggestion once and in order, and nothing on the one slot of a placeholder.  From a slot of a
category, a page ahead leads to where the next one begins, the first after the last, and a page back
to where the one before begins; a page ahead and a page back lead to where its own begins.  From
where a category begins, as many pages as there are categories lead to each of them once and
back. -/
theorem slots_cover_buckets (bs : Buckets) :
    (List.range bs.total).map bs.get? = bs.flatMap Bucket.row ∧
    (∀ slot, bs.get? slot = none ↔ bs.total ≤ slot ∨
      ∃ place b, bs[place]? = some b ∧ b.isPlaceholder = true ∧
        bs.slots[slot]? = some (place, 0)) ∧
    (∀ slot, slot < bs.total ↔ ∃ place k, bs.slots[slot]? = some (place, k)) ∧
    ∀ slot place k, bs.slots[slot]? = some (place, k) →
      (∀ forward, bs.turnPage slot forward < bs.total) ∧
      bs.slots[bs.turnPage slot true]? = some ((place + 1) % bs.length, 0) ∧
      bs.slots[bs.turnPage slot false]? = some ((place + bs.length - 1) % bs.length, 0) ∧
      bs.slots[bs.turnPage (bs.turnPage slot true) false]? = some (place, 0) ∧
      (k = 0 → (bs.turnPage · true)^[bs.length] slot = slot ∧
        ∀ other < bs.length, ∃! pages, pages < bs.length ∧
          bs.slots[(bs.turnPage · true)^[pages] slot]? = some (other, 0)) := by
  refine ⟨map_get?_range bs, fun slot => get?_eq_none_iff, fun slot => lt_total_iff, ?_⟩
  intro slot place k hslot
  obtain ⟨b, hb, -, hfirst⟩ := of_getElem?_slots hslot
  have hplace : place < bs.length := (List.getElem?_eq_some_iff.mp hb).1
  have hahead := slots_turnPage hslot true
  have hback := slots_turnPage hslot false
  have hreturn := slots_turnPage hahead false
  refine ⟨fun forward => ?_, ?_, ?_, ?_, ?_⟩
  · exact lt_total_iff.mpr ⟨_, _, slots_turnPage hslot forward⟩
  · rw [hahead]
    exact congrArg (fun p => some (p, 0)) (Cycle.next_eq_mod hplace)
  · rw [hback]
    exact congrArg (fun p => some (p, 0)) (Cycle.previous_eq_mod hplace)
  · rw [hreturn]
    exact congrArg (fun p => some (p, 0)) (Cycle.previous_next hplace)
  · rintro rfl
    have hround := slots_iterate_turnPage hslot
    constructor
    · have hreturned := hround bs.length
      rw [Nat.add_mod_right, Nat.mod_eq_of_lt hplace] at hreturned
      obtain ⟨-, -, -, hsame⟩ := of_getElem?_slots hreturned
      exact hsame.trans hfirst.symm
    · intro other hother
      simp only [hround, Option.some.injEq, Prod.mk.injEq, and_true]
      exact Cycle.existsUnique_steps hplace hother

/-- Two colours, a category that is waited for, and a size. -/
def coloursAndSizes : Buckets :=
  let texts (ts : List String) : List Suggestion := ts.map fun t => ⟨"source", .text t, t⟩
  ((merge [] ⟨"Colours", 2, 0⟩ 0 (texts ["red", "green"]) none).reserve ⟨"Shades", 1, 1⟩).merge
    ⟨"Sizes", 0, 2⟩ 0 (texts ["small"]) none

theorem slots_cover_buckets_coloursAndSizes :
    let bs := coloursAndSizes
    bs.total = 4 ∧ (bs.flatMap Bucket.row).map (·.map (·.text))
        = [some "red", some "green", none, some "small"] ∧
      bs.slots[1]? = some (0, 1) ∧ bs.slots[2]? = some (1, 0) ∧
      bs.get? 2 = none ∧
      bs.slots[bs.turnPage 1 false]? = some (2, 0) ∧
      (bs.turnPage · true)^[3] 2 = 2 := by
  intro bs
  have hgreen : bs.slots[1]? = some (0, 1) := by decide
  have hwaited : bs.slots[2]? = some (1, 0) := by decide
  obtain ⟨-, hnone, -, hpages⟩ := slots_cover_buckets bs
  obtain ⟨-, -, hback, -, -⟩ := hpages 1 0 1 hgreen
  obtain ⟨-, -, -, -, hround⟩ := hpages 2 1 0 hwaited
  refine ⟨by decide, by decide, hgreen, hwaited, ?_, hback, (hround rfl).1⟩
  exact (hnone 2).mpr (Or.inr ⟨1, _, rfl, by decide, hwaited⟩)

end Buckets

end QueryBar
