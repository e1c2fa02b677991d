/-
Keys that a supply will still hand out.

Keys are a stem and a count, and the count only goes up.  What has been handed out is
therefore not handed out again, and a row that keeps clear of the keys to come stays clear of
them as they are drawn.
-/
import QueryBar.Matcher

namespace QueryBar.KeySupply

variable {g g' : KeySupply} {key : String}

/-- The key is still to be handed out. -/
def Owes (g : KeySupply) (key : String) : Prop :=
  ∃ n, g.issued < n ∧ key = g.stem ++ toString n

theorem owes_next (g : KeySupply) : g.Owes g.next := ⟨g.issued + 1, Nat.lt_succ_self _, rfl⟩

/-- A key without the stem is none of the supply's. -/
theorem not_owes_of_stem (h : ¬ g.stem.toList <+: key.toList) : ¬ g.Owes key := by
  rintro ⟨n, -, rfl⟩
  rw [String.toList_append] at h
  exact h (List.prefix_append _ _)

theorem Owes.of_advance (h : g.advance.Owes key) : g.Owes key := by
  obtain ⟨n, hn, hkey⟩ := h
  exact ⟨n, Nat.lt_of_succ_lt hn, hkey⟩

/-- Different counts read differently. -/
theorem toString_injective {m n : Nat} (h : toString m = toString n) : m = n := by
  rw [Nat.toString_eq_ofList_toDigits, Nat.toString_eq_ofList_toDigits] at h
  have hdigits : Nat.toDigits 10 m = Nat.toDigits 10 n := String.ofList_injective h
  rw [← Nat.ofDigitChars_ten_toDigits (n := m), hdigits, Nat.ofDigitChars_ten_toDigits]

/-- A key that has been drawn is not handed out again. -/
theorem not_owes_next (g : KeySupply) : ¬ g.advance.Owes g.next := by
  rintro ⟨n, hn, hkey⟩
  have hsame : g.issued + 1 = n :=
    toString_injective ((String.append_right_inj g.stem).mp hkey)
  have hlater : g.issued + 1 < n := hn
  omega

/-- What a supply does not owe it does not owe either when a key has been drawn. -/
theorem not_owes_of_drawn (hdrawn : g' = g ∨ g' = g.advance) (h : ¬ g.Owes key) :
    ¬ g'.Owes key := by
  rcases hdrawn with rfl | rfl
  · exact h
  · exact fun howes => h howes.of_advance

end QueryBar.KeySupply
