/-
Quoted texts, read again.

What stands between quotes names code points one after the other: a character names itself, unless
it has to be escaped, and an escape is a letter or four digits.  However they are spelled, the code
points are read again (`scanText_spells`), whatever follows the closing quote (`scan_spellsText`).

A text is written with one of its spellings (`spellsText_quoted`).  No character is half of a
surrogate pair, so what its characters name joins to the text again.
-/
import QueryBar.Json.Lexeme

namespace QueryBar.Json

/-- What stands between quotes, with the code points that it names. -/
inductive SpellsPoints : List Nat → List Char → Prop
  | nil : SpellsPoints [] []
  | plain {c : Char} {points : List Nat} {cs : List Char} (hquote : c ≠ '"') (hslash : c ≠ '\\')
      (hlow : ¬ c.toNat < 32) (h : SpellsPoints points cs) :
      SpellsPoints (c.toNat :: points) (c :: cs)
  | short {c : Char} {n : Nat} {points : List Nat} {cs : List Char}
      (hescape : shortEscape? c = some n) (h : SpellsPoints points cs) :
      SpellsPoints (n :: points) ('\\' :: c :: cs)
  | digits {w x y z : Char} {n : Nat} {points : List Nat} {cs : List Char}
      (hvalue : hexValue4? w x y z = some n) (h : SpellsPoints points cs) :
      SpellsPoints (n :: points) ('\\' :: 'u' :: w :: x :: y :: z :: cs)

/-- A quoted text, with the text that it stands for; none if it names half of a surrogate pair. -/
inductive SpellsText : Option String → List Char → Prop
  | quotes {points : List Nat} {cs : List Char} (h : SpellsPoints points cs) :
      SpellsText ((joinHalves? points).map String.ofList) ('"' :: (cs ++ ['"']))

variable {cs rest : List Char} {points : List Nat}

/-! ### Reading -/

/-- A character that is written as it is. -/
theorem scanText_plain (points : List Nat) {c : Char} (hquote : c ≠ '"') (hslash : c ≠ '\\')
    (hlow : ¬ c.toNat < 32) (cs : List Char) :
    scanText points (c :: cs) = scanText (c.toNat :: points) cs := by
  rw [scanText.eq_def]
  split
  · contradiction
  · rename_i heq
    exact absurd (List.cons.inj heq).1 hquote
  · rename_i heq
    exact absurd (List.cons.inj heq).1 hslash
  · rename_i heq
    exact absurd (List.cons.inj heq).1 hslash
  · rename_i heq
    obtain ⟨rfl, rfl⟩ := List.cons.inj heq
    rw [if_neg fun h => h.elim hlow hslash]

/-- A character that is written with a letter. -/
theorem scanText_short (points : List Nat) {c : Char} {n : Nat} (h : shortEscape? c = some n)
    (cs : List Char) : scanText points ('\\' :: c :: cs) = scanText (n :: points) cs := by
  have hu : c ≠ 'u' := by
    rintro rfl
    rw [show shortEscape? 'u' = none from rfl] at h
    contradiction
  rw [scanText.eq_def]
  split
  · contradiction
  · rename_i heq
    exact absurd (List.cons.inj heq).1 (by decide)
  · rename_i heq
    exact absurd (List.cons.inj (List.cons.inj heq).2).1 hu
  · rename_i heq
    obtain ⟨rfl, rfl⟩ := List.cons.inj (List.cons.inj heq).2
    rw [h]
  · rename_i hno heq
    obtain ⟨rfl, rfl⟩ := List.cons.inj heq
    exact absurd rfl (hno _ _ rfl)

/-- **Code points are read as they were spelled**, whatever follows the closing quote. -/
theorem scanText_spells (h : SpellsPoints points cs) (done : List Nat) (rest : List Char) :
    scanText done (cs ++ '"' :: rest) = some (done.reverse ++ points, rest) := by
  induction h generalizing done with
  | nil =>
      rw [List.append_nil]
      rfl
  | plain hquote hslash hlow _ ih =>
      rw [List.cons_append, scanText_plain done hquote hslash hlow, ih, List.reverse_cons,
        List.append_assoc, List.singleton_append]
  | short hescape _ ih =>
      rw [List.cons_append, List.cons_append, scanText_short done hescape, ih, List.reverse_cons,
        List.append_assoc, List.singleton_append]
  | digits hvalue _ ih =>
      simp only [List.cons_append]
      rw [scanText, hvalue]
      dsimp only
      rw [ih, List.reverse_cons, List.append_assoc, List.singleton_append]

/-- **A quoted text is read as the text that it stands for.** -/
theorem scan_spellsText {t : Option String} (h : SpellsText t cs) (rest : List Char) :
    Lexeme.scan (cs ++ rest) = .text t :: Lexeme.scan rest := by
  obtain ⟨h⟩ := h
  rename_i points cs
  have hscan : scanText [] (cs ++ '"' :: rest) = some (points, rest) := scanText_spells h [] rest
  have hquoted : '"' :: (cs ++ ['"']) ++ rest = '"' :: (cs ++ '"' :: rest) := by
    rw [List.cons_append, List.append_assoc, List.singleton_append]
  rw [hquoted, Lexeme.scan]
  split
  · rename_i heq
    rw [hscan] at heq
    obtain ⟨rfl, rfl⟩ := Prod.mk.inj (Option.some.inj heq)
    rfl
  · rename_i heq
    rw [hscan] at heq
    contradiction

/-! ### Writing -/

theorem hexValue_hexDigit : ∀ n < 16, hexValue? (hexDigit n) = some n := by decide

/-- A character below the blank is read from the four digits of its number. -/
theorem hexValue4_of_low {n : Nat} (h : n < 32) :
    hexValue4? '0' '0' (hexDigit (n / 16)) (hexDigit n) = some n := by
  have hhigh := hexValue_hexDigit (n / 16) (by omega)
  have hlow := hexValue_hexDigit (n % 16) (by omega)
  have hsame : hexDigit n = hexDigit (n % 16) := by
    unfold hexDigit
    rw [Nat.mod_mod]
  unfold hexValue4?
  rw [hsame, hhigh, hlow, show hexValue? '0' = some 0 from rfl]
  simp only [Option.some.injEq]
  omega

/-- What is written for a character names it. -/
theorem spellsPoints_escape (c : Char) (h : SpellsPoints points cs) :
    SpellsPoints (c.toNat :: points) (escape c ++ cs) := by
  unfold escape
  split
  · rename_i hc
    exact .short (by rw [hc]; rfl) h
  split
  · rename_i hc
    exact .short (by rw [hc]; rfl) h
  split
  · rename_i hc
    exact .short (by rw [hc]; rfl) h
  split
  · rename_i hc
    exact .short (by rw [hc]; rfl) h
  split
  · rename_i hc
    exact .short (by rw [hc]; rfl) h
  split
  · rename_i hc
    exact .short (by rw [hc]; rfl) h
  split
  · rename_i hc
    exact .short (by rw [hc]; rfl) h
  split
  · rename_i hlow
    exact .digits (hexValue4_of_low hlow) h
  · rename_i hquote hslash _ _ _ _ _ hlow
    exact .plain hquote hslash hlow h

theorem spellsPoints_flatMap_escape (cs : List Char) :
    SpellsPoints (cs.map Char.toNat) (cs.flatMap escape) := by
  induction cs with
  | nil => exact .nil
  | cons c cs ih =>
      rw [List.map_cons, List.flatMap_cons]
      exact spellsPoints_escape c ih

/-- No character is half of a surrogate pair. -/
theorem not_isHalf (c : Char) : isHighHalf c.toNat = false ∧ isLowHalf c.toNat = false := by
  have hvalid : c.toNat < 0xD800 ∨ 0xDFFF < c.toNat ∧ c.toNat < 0x110000 := c.valid
  unfold isHighHalf isLowHalf
  simp only [Bool.and_eq_false_imp, decide_eq_true_eq, decide_eq_false_iff_not]
  omega

theorem joinHalves_toNat (cs : List Char) : joinHalves? (cs.map Char.toNat) = some cs := by
  induction cs with
  | nil => rfl
  | cons c cs ih =>
      obtain ⟨hhigh, hlow⟩ := not_isHalf c
      rw [List.map_cons, joinHalves?.eq_def]
      dsimp only
      rw [hhigh, hlow, ih, if_neg Bool.false_ne_true, if_neg Bool.false_ne_true, Option.map_some,
        Char.ofNat_toNat]

/-- **What is written for a text is one of its spellings.** -/
theorem spellsText_quoted (s : String) : SpellsText (some s) (quoted s) := by
  have hspells := SpellsText.quotes (spellsPoints_flatMap_escape s.toList)
  rwa [joinHalves_toNat, Option.map_some, String.ofList_toList] at hspells

end QueryBar.Json
