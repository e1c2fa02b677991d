/-
Matchers that change places.

Where keys are apart, the keys of two matchers lead to their places and an exchange is the
transposition of these (`Exchanged`), of the row as of the active place.  The row and the active
place therefore stay in agreement, and what is exchanged a second time is where it was: a
transposition is its own inverse.

The open matcher moves by an exchange with the one beside it, going round.  To move it there and
back is to exchange the same two places twice, since one step back undoes one step ahead
(`Cycle.go_go`).  The flagged brackets come back because they are those of the row at any time.
-/
import Mathlib.Logic.Equiv.Basic
import QueryBar.Proofs.Bar.Derived
import QueryBar.Proofs.Buckets.Pages

namespace QueryBar

namespace Cycle

variable {n i : Nat}

/-- One ahead undoes one back. -/
theorem next_previous (h : i < n) : next n (previous n i) = i := by
  unfold previous
  split
  · rename_i hpos
    unfold next
    rw [if_pos (by omega)]
    omega
  · unfold next
    rw [if_neg (by omega)]
    omega

/-- A step the other way undoes a step. -/
theorem go_go (h : i < n) (forward : Bool) : go (!forward) n (go forward n i) = i := by
  cases forward with
  | true => exact previous_next h
  | false => exact next_previous h

theorem go_eq_mod (h : i < n) (forward : Bool) :
    go forward n i = (if forward then i + 1 else i + n - 1) % n := by
  cases forward with
  | true => exact next_eq_mod h
  | false => exact previous_eq_mod h

end Cycle

namespace Bar

variable {b b' b'' : Bar} {m n : Matcher} {i j a : Nat}

/-! ### Exchanges -/

/-- The matcher at the active place. -/
def activeMatcher? (b : Bar) : Option Matcher := b.active.bind fun a => b.matchers[a]?

/-- The matchers at two places have changed places, and the active place has gone along. -/
structure Exchanged (b b' : Bar) (i j : Nat) : Prop where
  row : ∀ a, b'.matchers[a]? = b.matchers[Equiv.swap i j a]?
  active : b'.active = b.active.map (Equiv.swap i j)
  /-- The matcher that is edited stays in the box. -/
  held : b'.box.matcher = b.box.matcher

theorem Exchanged.comm (h : b.Exchanged b' i j) : b.Exchanged b' j i := by
  have hsame := Equiv.swap_comm i j
  exact ⟨fun a => hsame ▸ h.row a, hsame ▸ h.active, h.held⟩

theorem Exchanged.left (h : b.Exchanged b' i j) : b'.matchers[i]? = b.matchers[j]? := by
  rw [h.row, Equiv.swap_apply_left]

theorem Exchanged.right (h : b.Exchanged b' i j) : b'.matchers[j]? = b.matchers[i]? := by
  rw [h.row, Equiv.swap_apply_right]

/-- **The active matcher stays active.** -/
theorem Exchanged.activeMatcher? (h : b.Exchanged b' i j) :
    b'.activeMatcher? = b.activeMatcher? := by
  unfold Bar.activeMatcher?
  rw [h.active, Option.bind_map]
  congr 1
  funext a
  rw [Function.comp_apply, h.row, Equiv.swap_apply_self]

/-- **What has changed places twice is where it was.** -/
theorem Exchanged.twice (h : b.Exchanged b' i j) (h' : b'.Exchanged b'' i j) :
    b''.matchers = b.matchers ∧ b''.active = b.active := by
  constructor
  · refine List.ext_getElem? fun a => ?_
    rw [h'.row, h.row, Equiv.swap_apply_self]
  · rw [h'.active, h.active, Option.map_map]
    have hself : Equiv.swap i j ∘ Equiv.swap i j = id := funext (Equiv.swap_apply_self i j)
    rw [hself, Option.map_id, id]

/-- Where keys are apart, two matchers are exchanged by their keys. -/
theorem exchanged_swap (hkeys : (b.matchers.map (·.key)).Nodup) (hm : b.matchers[i]? = some m)
    (hn : b.matchers[j]? = some n) :
    (b.swap m.key n.key).2 = true ∧ b.Exchanged (b.swap m.key n.key).1 i j := by
  have hi : i < b.matchers.length := (List.getElem?_eq_some_iff.mp hm).1
  have hj : j < b.matchers.length := (List.getElem?_eq_some_iff.mp hn).1
  unfold swap placeOf?
  rw [RowChange.findIdx?_key hkeys hm, RowChange.findIdx?_key hkeys hn]
  have hmove : (fun a => if a = i then j else if a = j then i else a) = Equiv.swap i j :=
    funext fun a => (Equiv.swap_apply_def i j a).symm
  refine ⟨rfl, fun a => ?_, ?_, (alike_rowChanged _).held⟩
  · have hmoved := RowChange.getElem?_exchange hi hj (a := Equiv.swap i j a)
    rw [← Equiv.swap_apply_def, Equiv.swap_apply_self] at hmoved
    exact hmoved
  · rw [← hmove]
    exact (alike_rowChanged _).active

theorem perm_swap (b : Bar) (key other : String) :
    (b.swap key other).1.matchers.Perm b.matchers := by
  unfold swap
  split
  · exact RowChange.perm_exchange ..
  · exact List.Perm.refl _

theorem nodup_key_swap (hkeys : (b.matchers.map (·.key)).Nodup) (key other : String) :
    ((b.swap key other).1.matchers.map (·.key)).Nodup :=
  ((b.perm_swap key other).map _).nodup_iff.mpr hkeys

/-- **The same exchange once more takes the first one back.** -/
theorem swap_swap (hkeys : (b.matchers.map (·.key)).Nodup) (hm : b.matchers[i]? = some m)
    (hn : b.matchers[j]? = some n) :
    ((b.swap m.key n.key).1.swap m.key n.key).1.matchers = b.matchers ∧
      ((b.swap m.key n.key).1.swap m.key n.key).1.active = b.active := by
  have hthere := (exchanged_swap hkeys hm hn).2
  have hback := (exchanged_swap (nodup_key_swap hkeys ..) (hthere.right.trans hm)
    (hthere.left.trans hn)).2
  exact hthere.twice hback.comm

/-! ### Moving the open matcher -/

theorem moveActive_of_none (h : b.active = none) (forward : Bool) :
    b.moveActive forward = (b, false) := by
  unfold moveActive
  rw [h]

theorem moveActive_of_single (h : b.matchers.length ≤ 1) (forward : Bool) :
    b.moveActive forward = (b, false) := by
  unfold moveActive
  dsimp only
  split
  · rfl
  · exact if_pos h

/-- A matcher that has others beside it moves by an exchange with one of them. -/
theorem moveActive_eq_swap (hactive : b.active = some a) (ha : a < b.matchers.length)
    (hothers : 1 < b.matchers.length) (forward : Bool) :
    ∃ m n, b.matchers[a]? = some m ∧
      b.matchers[Cycle.go forward b.matchers.length a]? = some n ∧
      b.moveActive forward = b.swap m.key n.key := by
  have hm := List.getElem?_eq_getElem ha
  have hn := List.getElem?_eq_getElem (Cycle.go_lt ha forward)
  refine ⟨_, _, hm, hn, ?_⟩
  unfold moveActive
  dsimp only
  rw [hactive]
  dsimp only
  rw [if_neg (by omega), hm, hn]

theorem exchanged_moveActive (hkeys : (b.matchers.map (·.key)).Nodup)
    (hactive : b.active = some a) (ha : a < b.matchers.length)
    (hothers : 1 < b.matchers.length) (forward : Bool) :
    (b.moveActive forward).2 = true ∧
      b.Exchanged (b.moveActive forward).1 a (Cycle.go forward b.matchers.length a) ∧
      (b.moveActive forward).1.active = some (Cycle.go forward b.matchers.length a) := by
  obtain ⟨m, n, hm, hn, hswap⟩ := moveActive_eq_swap hactive ha hothers forward
  rw [hswap]
  obtain ⟨hdone, hexchanged⟩ := exchanged_swap hkeys hm hn
  refine ⟨hdone, hexchanged, ?_⟩
  rw [hexchanged.active, hactive, Option.map_some, Equiv.swap_apply_left]

/-- **There and back again nothing has moved.** -/
theorem moveActive_moveActive (hkeys : (b.matchers.map (·.key)).Nodup) (hplaced : b.Placed)
    (forward : Bool) :
    ((b.moveActive forward).1.moveActive (!forward)).1.matchers = b.matchers ∧
      ((b.moveActive forward).1.moveActive (!forward)).1.active = b.active := by
  cases hactive : b.active with
  | none =>
      rw [moveActive_of_none hactive, moveActive_of_none hactive]
      exact ⟨rfl, hactive⟩
  | some a =>
      by_cases hothers : 1 < b.matchers.length
      · have ha := hplaced a hactive
        obtain ⟨-, hthere, hmoved⟩ := exchanged_moveActive hkeys hactive ha hothers forward
        obtain ⟨m, n, -, -, hswap⟩ := moveActive_eq_swap hactive ha hothers forward
        have hkeys' := nodup_key_swap hkeys m.key n.key
        have hlength := (b.perm_swap m.key n.key).length_eq
        rw [← hswap] at hkeys' hlength
        obtain ⟨-, hback, -⟩ := exchanged_moveActive hkeys' hmoved
          (hlength ▸ Cycle.go_lt ha forward) (hlength ▸ hothers) (!forward)
        rw [hlength, Cycle.go_go ha] at hback
        rw [← hactive]
        exact hthere.twice hback.comm
      · have hsingle : b.matchers.length ≤ 1 := by omega
        rw [moveActive_of_single hsingle, moveActive_of_single hsingle]
        exact ⟨rfl, hactive⟩

/-- **Reordering only transposes.**  Two matchers that are exchanged by their keys change places,
all others stay where they are, and the same exchange once more takes it back.  The open matcher
moves by such an exchange with the one beside it, going round, and by none where it is alone.  It
stays open in either case, and to move it there and back leaves all as it was. -/
theorem reordering_only_transposes (h : Used b) (hkeys : (b.matchers.map (·.key)).Nodup) :
    (∀ i j m n, b.matchers[i]? = some m → b.matchers[j]? = some n →
      ∃ b', b.swap m.key n.key = (b', true) ∧ b.Exchanged b' i j ∧
        b'.activeMatcher? = b.activeMatcher? ∧
        (b'.swap m.key n.key).1.matchers = b.matchers ∧
        (b'.swap m.key n.key).1.active = b.active) ∧
    (∀ forward, b.active = none ∨ b.matchers.length ≤ 1 → b.moveActive forward = (b, false)) ∧
    (∀ forward a, b.active = some a → 1 < b.matchers.length →
      ∃ j m n, j = (if forward then a + 1 else a + b.matchers.length - 1) % b.matchers.length ∧
        b.matchers[a]? = some m ∧ b.matchers[j]? = some n ∧
        b.moveActive forward = b.swap m.key n.key ∧
        (b.moveActive forward).1.active = some j ∧
        (b.moveActive forward).1.activeMatcher? = some m) ∧
    ∀ forward,
      let back := ((b.moveActive forward).1.moveActive (!forward)).1
      back.matchers = b.matchers ∧ back.active = b.active ∧ back.unbalanced = b.unbalanced := by
  have hplaced := placed_used h
  have habreast := abreast_reachable h.reachable
  refine ⟨?_, ?_, ?_, ?_⟩
  · intro i j m n hm hn
    obtain ⟨hdone, hexchanged⟩ := exchanged_swap hkeys hm hn
    exact ⟨_, Prod.ext rfl hdone, hexchanged, hexchanged.activeMatcher?, swap_swap hkeys hm hn⟩
  · rintro forward (hnone | hsingle)
    · exact moveActive_of_none hnone forward
    · exact moveActive_of_single hsingle forward
  · intro forward a hactive hothers
    have ha := hplaced a hactive
    obtain ⟨m, n, hm, hn, hswap⟩ := moveActive_eq_swap hactive ha hothers forward
    obtain ⟨-, hexchanged, hmoved⟩ := exchanged_moveActive hkeys hactive ha hothers forward
    refine ⟨_, m, n, Cycle.go_eq_mod ha forward, hm, hn, hswap, hmoved, ?_⟩
    rw [hexchanged.activeMatcher?]
    unfold Bar.activeMatcher?
    rw [hactive]
    exact hm
  · intro forward back
    obtain ⟨hrow, hactive⟩ := moveActive_moveActive hkeys hplaced forward
    have hback : back.Abreast := abreast_moveActive (abreast_moveActive habreast _) _
    exact ⟨hrow, hactive, by rw [hback.unbalanced, habreast.unbalanced, hrow]⟩

/-- The last of three matchers, a bracket without a partner, is open: it moves round to the front
of the row, and back again. -/
theorem reordering_only_transposes_twoColours :
    let b := twoColours.run [.add (.bracket "c" .closing .none), .select 2]
    b.Used ∧ (b.matchers.map (·.key)).Nodup ∧
      (b.moveActive true).1.matchers.map (·.key) = ["c", "b", "a"] ∧
      (b.moveActive true).1.active = some 0 ∧ (b.moveActive true).1.unbalanced = [0] ∧
      ((b.moveActive true).1.moveActive false).1.matchers = b.matchers ∧
      ((b.moveActive true).1.moveActive false).1.unbalanced = [2] := by
  intro b
  have hused : b.Used := (Used.built (.equip (.new ..) (.matchers _))).run _
  have hkeys : (b.matchers.map (·.key)).Nodup := by decide
  obtain ⟨-, -, hmoves, hback⟩ := reordering_only_transposes hused hkeys
  obtain ⟨j, m, n, hj, -, -, -, hactive, -⟩ := hmoves true 2 (by decide) (by decide)
  obtain ⟨hrow, -, hunbalanced⟩ := hback true
  refine ⟨hused, hkeys, by decide, ?_, by decide, hrow, hunbalanced.trans (by decide)⟩
  rw [hactive, hj]
  decide

end Bar

end QueryBar
