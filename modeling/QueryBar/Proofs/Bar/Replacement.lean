/-
A row from outside under an open edit.

A row that is taken from outside replaces the whole row, but the edit goes on at its place as
long as there is such a place.  It is still about the matcher that is edited exactly if that
place has gone or holds a matcher with the same key.  A row that is dropped as an echo leaves
everything as it was.
-/
import QueryBar.Proofs.Bar.Selection

namespace QueryBar.Bar

variable {b b' : Bar} {row : List Matcher} {i : Nat} {m : Matcher}

/-- No matcher is open, or the active place holds a matcher with the key of the open one. -/
def OnItsMatcher (b : Bar) : Prop :=
  b.Closed ∨ ∃ i m n, b.active = some i ∧ b.box.matcher = some m ∧ b.matchers[i]? = some n ∧
    n.key = m.key

/-- If a matcher is open, a row has no matcher with another key at the active place. -/
def Tolerates (b : Bar) (row : List Matcher) : Prop :=
  ∀ i m n, b.active = some i → b.box.matcher = some m → row[i]? = some n → n.key = m.key

theorem OnItsMatcher.congr (h : Alike b b') : b'.OnItsMatcher ↔ b.OnItsMatcher := by
  have hclosed : b'.Closed ↔ b.Closed :=
    ⟨fun hc => ⟨h.active.symm.trans hc.active, h.held.symm.trans hc.held⟩, h.closed⟩
  unfold OnItsMatcher
  rw [hclosed, h.active, h.held, h.row]

theorem onItsMatcher_iff_of_open (hactive : b.active = some i) (hheld : b.box.matcher = some m) :
    b.OnItsMatcher ↔ ∃ n, b.matchers[i]? = some n ∧ n.key = m.key := by
  constructor
  · rintro (hclosed | ⟨i', m', n, hactive', hheld', hn, hkey⟩)
    · exact absurd (hactive.symm.trans hclosed.active) (by simp)
    · obtain rfl := Option.some.inj (hactive.symm.trans hactive')
      obtain rfl := Option.some.inj (hheld.symm.trans hheld')
      exact ⟨n, hn, hkey⟩
  · rintro ⟨n, hn, hkey⟩
    exact Or.inr ⟨i, m, n, hactive, hheld, hn, hkey⟩

theorem tolerates_iff_of_open (hactive : b.active = some i) (hheld : b.box.matcher = some m) :
    b.Tolerates row ↔ ∀ n, row[i]? = some n → n.key = m.key := by
  constructor
  · intro h n hn
    exact h i m n hactive hheld hn
  · intro h i' m' n hactive' hheld' hn
    obtain rfl := Option.some.inj (hactive.symm.trans hactive')
    obtain rfl := Option.some.inj (hheld.symm.trans hheld')
    exact h n hn

theorem Closed.tolerates (h : b.Closed) : b.Tolerates row := by
  intro i m n hactive
  rw [h.active] at hactive
  contradiction

theorem Closed.sync (h : b.Closed) (row : List Matcher) : (b.sync row).Closed := by
  rcases change_sync b row with hc | hc
  · exact KeepsOpen.closed hc.opened h
  · exact hc.opened.elim id fun hkept => hkept.1.closed h

/-- A row that is taken goes unnoticed by the edit unless its place is gone. -/
theorem sync_onItsMatcher_iff_of_open (hecho : b.echoDue = false) (hactive : b.active = some i)
    (hheld : b.box.matcher = some m) : (b.sync row).OnItsMatcher ↔ b.Tolerates row := by
  rw [OnItsMatcher.congr (alike_sync_of_row hecho row), tolerates_iff_of_open hactive hheld]
  split
  · rename_i hgone
    rw [hactive, Option.any_some, decide_eq_true_eq] at hgone
    refine iff_of_true (Or.inl (closed_openTrailing _)) ?_
    intro n hn
    rw [List.getElem?_eq_none hgone] at hn
    contradiction
  · rename_i hthere
    rw [hactive, Option.any_some, decide_eq_true_eq, Nat.not_le] at hthere
    have hopen : Bar.OnItsMatcher { b with matchers := row } ↔
        ∃ n, row[i]? = some n ∧ n.key = m.key := onItsMatcher_iff_of_open hactive hheld
    rw [hopen, List.getElem?_eq_getElem hthere]
    simp

/-- **Where a row from outside leaves the open edit.**  An echo leaves it where it was.  Any other
row leaves it on its matcher exactly if it has nothing else at the active place. -/
theorem sync_onItsMatcher_iff (h : Reachable b) (row : List Matcher) :
    (b.sync row).OnItsMatcher ↔ if b.echoDue then b.OnItsMatcher else b.Tolerates row := by
  cases hecho : b.echoDue with
  | true => exact OnItsMatcher.congr (alike_sync_of_echo hecho row)
  | false =>
      rcases (paired_reachable h).closed_or_open with hclosed | ⟨i, m, hactive, hheld⟩
      · exact iff_of_true (Or.inl (hclosed.sync row)) hclosed.tolerates
      · exact sync_onItsMatcher_iff_of_open hecho hactive hheld

theorem sync_onItsMatcher_iff_twoColours :
    let b := twoColours.run [.select 1]
    let row := [colour "c" "blue", colour "b" "violet"]
    b.Reachable ∧ b.Tolerates row ∧ (b.sync row).OnItsMatcher ∧
      (b.sync row).active = some 1 := by
  intro b row
  have hreachable : b.Reachable := .step (.equip (.new ..) (.matchers _)) (.select 1)
  have htolerates : b.Tolerates row :=
    (tolerates_iff_of_open (show b.active = some 1 by decide)
      (show b.box.matcher = some (colour "b" "green") from rfl)).mpr
      (by intro n hn; obtain rfl := Option.some.inj hn; rfl)
  exact ⟨hreachable, htolerates, (sync_onItsMatcher_iff hreachable row).mpr htolerates, by decide⟩

/-- **A row from outside can leave the edit at another matcher**: the edited matcher is taken out,
and the next one stands at its place. -/
theorem sync_leaves_edit_astray :
    let b := twoColours.run [.select 0]
    let row := [colour "b" "green"]
    b.Reachable ∧ (b.matchers.map (·.key)).Nodup ∧ (row.map (·.key)).Nodup ∧
      (b.sync row).active = some 0 ∧ (b.sync row).matchers.map (·.key) = ["b"] ∧
      (b.sync row).box.matcher.map (·.key) = some "a" ∧ ¬ (b.sync row).OnItsMatcher := by
  intro b row
  have hreachable : b.Reachable := .step (.equip (.new ..) (.matchers _)) (.select 0)
  refine ⟨hreachable, by decide, by decide, by decide, by decide, by decide, ?_⟩
  intro hon
  obtain ⟨n, hn, hkey⟩ := (onItsMatcher_iff_of_open (show (b.sync row).active = some 0 by decide)
    (show (b.sync row).box.matcher = some (colour "a" "red") from rfl)).mp hon
  obtain rfl := Option.some.inj hn
  revert hkey
  decide

end QueryBar.Bar
