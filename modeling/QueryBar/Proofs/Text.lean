/-
Texts with no blanks at their ends.

A text that trimming leaves alone begins and ends with characters that are not blank.  So does
any other text that begins with such a character and ends with the text, and so does what is left
of it when characters at its start are taken away and blanks after them.
-/
import Mathlib.Data.List.DropRight
import QueryBar.Text.Blank

namespace QueryBar.Text

variable {c : Char} {cs front : List Char}

theorem trimStart_cons (h : isBlank c = false) (cs : List Char) : trimStart (c :: cs) = c :: cs :=
  List.dropWhile_cons_of_neg (by simp [h])

theorem trimStart_cons_blank (h : isBlank c = true) (cs : List Char) :
    trimStart (c :: cs) = trimStart cs :=
  List.dropWhile_cons_of_pos h

theorem length_trimEnd_le (cs : List Char) : (trimEnd cs).length ≤ cs.length := by
  have hle := (List.dropWhile_sublist isBlank (l := cs.reverse)).length_le
  unfold trimEnd
  rw [List.length_reverse] at hle ⊢
  exact hle

/-- What begins with no blank is never lost to trimming. -/
theorem trim_cons_ne_nil (h : isBlank c = false) (cs : List Char) : trim (c :: cs) ≠ [] := by
  unfold trim trimEnd
  rw [trimStart_cons h, List.reverse_cons, List.dropWhile_append]
  split
  · rw [List.dropWhile_cons_of_neg (by simp [h])]
    simp
  · simp

/-- A text with no blanks at its ends has none at its start. -/
theorem trimStart_of_trim (h : trim cs = cs) : trimStart cs = cs := by
  have hsuffix : trimStart cs <:+ cs := List.dropWhile_suffix isBlank
  have hle : cs.length ≤ (trimStart cs).length := by
    calc cs.length = (trimEnd (trimStart cs)).length := congrArg List.length h.symm
      _ ≤ (trimStart cs).length := length_trimEnd_le _
  exact hsuffix.eq_of_length (Nat.le_antisymm hsuffix.length_le hle)

/-- A text with no blanks at its ends has none at its end. -/
theorem trimEnd_of_trim (h : trim cs = cs) : trimEnd cs = cs := by
  have hstart := trimStart_of_trim h
  unfold trim at h
  rw [hstart] at h
  exact h

/-- What stands in front of a text makes no difference to its end. -/
theorem trimEnd_append (h : trimEnd cs = cs) (hne : cs ≠ []) (front : List Char) :
    trimEnd (front ++ cs) = front ++ cs := by
  have hreverse : cs.reverse.dropWhile isBlank = cs.reverse := by
    rw [← List.reverse_reverse (cs.reverse.dropWhile isBlank)]
    exact congrArg List.reverse h
  unfold trimEnd
  rw [List.reverse_append, List.dropWhile_append, hreverse,
    if_neg (by rw [List.isEmpty_reverse, List.isEmpty_iff]; exact hne), List.reverse_append,
    List.reverse_reverse, List.reverse_reverse]

/-- **Where a text begins with no blank and ends with a text without blanks at its ends, nothing is
trimmed.** -/
theorem trim_cons_append (hc : isBlank c = false) (h : trim cs = cs) (hne : cs ≠ [])
    (front : List Char) : trim (c :: front ++ cs) = c :: front ++ cs := by
  unfold trim
  rw [List.cons_append, trimStart_cons hc, ← List.cons_append]
  exact trimEnd_append (trimEnd_of_trim h) hne (c :: front)

/-! ### Trimming what has been trimmed -/

/-- An end of a text that has no blank at its end has none there either. -/
theorem trimEnd_of_suffix {tail : List Char} (h : trimEnd cs = cs) (hsuffix : tail <:+ cs) :
    trimEnd tail = tail := by
  obtain ⟨front, rfl⟩ := hsuffix
  refine List.rdropWhile_eq_self_iff.mpr fun hne => ?_
  have hlast := List.rdropWhile_eq_self_iff.mp h (List.append_ne_nil_of_right_ne_nil _ hne)
  rwa [List.getLast_append_of_ne_nil _ hne] at hlast

/-- What is left of a text has no blanks at its ends once those at its start are taken away. -/
theorem trim_trimStart_drop (h : trim cs = cs) (n : Nat) :
    trim (trimStart (cs.drop n)) = trimStart (cs.drop n) := by
  have hsuffix : trimStart (cs.drop n) <:+ cs :=
    (List.dropWhile_suffix isBlank).trans (List.drop_suffix n cs)
  calc trim (trimStart (cs.drop n)) = trimEnd (trimStart (cs.drop n)) :=
        congrArg trimEnd (List.dropWhile_idempotent ..)
    _ = trimStart (cs.drop n) := trimEnd_of_suffix (trimEnd_of_trim h) hsuffix

theorem trimEnd_prefix (cs : List Char) : trimEnd cs <+: cs := List.rdropWhile_prefix ..

/-- A text that has been trimmed has no blanks at its ends. -/
theorem trim_trim (cs : List Char) : trim (trim cs) = trim cs := by
  have hstart : trimStart (trim cs) = trim cs := by
    refine List.dropWhile_eq_self_iff.mpr fun hlength => ?_
    have hfront : trim cs <+: trimStart cs := trimEnd_prefix _
    rw [hfront.getElem hlength]
    exact List.dropWhile_get_zero_not isBlank cs _
  calc trim (trim cs) = trimEnd (trim cs) := congrArg trimEnd hstart
    _ = trim cs := List.rdropWhile_idempotent ..

/-! ### Lines -/

/-- What stands behind something else, after a blank. -/
def behind (cs : List Char) : List Char := if cs.isEmpty then [] else ' ' :: cs

@[simp] theorem behind_nil : behind [] = [] := rfl

@[simp] theorem behind_cons (a : Char) (cs : List Char) : behind (a :: cs) = ' ' :: a :: cs := rfl

theorem trimStart_behind (h : trim cs = cs) : trimStart (behind cs) = cs := by
  cases cs with
  | nil => rfl
  | cons a cs =>
      rw [behind_cons, trimStart_cons_blank (by decide)]
      exact trimStart_of_trim h

/-- What begins a text that trimming leaves alone is not blank. -/
theorem isBlank_of_trim {a : Char} (h : trim (a :: cs) = a :: cs) : isBlank a = false := by
  refine Bool.eq_false_iff.mpr fun hblank => ?_
  have hstart := trimStart_of_trim h
  rw [trimStart_cons_blank hblank] at hstart
  have hle := (List.dropWhile_suffix isBlank (l := cs)).length_le
  have hlength := congrArg List.length hstart
  unfold trimStart at hlength
  rw [List.length_cons] at hlength
  omega

/-- **A blank at the end of a line is not read.** -/
theorem trim_append_blank (hfront : trim front = front) (hne : front ≠ []) (h : trim cs = cs) :
    trim (front ++ ' ' :: cs) = front ++ behind cs := by
  cases front with
  | nil => contradiction
  | cons a front =>
      have ha := isBlank_of_trim hfront
      cases cs with
      | nil =>
          have hend := trimEnd_of_trim hfront
          unfold trim
          rw [List.cons_append, trimStart_cons ha, behind_nil, List.append_nil]
          unfold trimEnd at hend ⊢
          rw [← List.cons_append, List.reverse_append, List.reverse_singleton, List.singleton_append,
            List.dropWhile_cons_of_pos (by decide)]
          exact hend
      | cons b cs =>
          rw [behind_cons]
          have htrim := trim_cons_append ha h (by simp) (front ++ [' '])
          simpa using htrim

end QueryBar.Text
