/-
Numerals, spelled and read again.

A sound numeral can be spelled in several ways, as its exponent can: the mark may be a small or a
large letter, and the sign may be left out.  Whichever way is taken, it is read as itself, part by
part, whatever stands behind it, as long as that does not go on with it (`Numeral.scan_unsigned`,
`Lexeme.scan_numeral`).
-/
import QueryBar.Json.Lexeme

namespace QueryBar.Json

/-- What stands behind a numeral does not go on with it. -/
def EndsNumeral (rest : List Char) : Prop :=
  ∀ c ∈ rest.head?, c.isDigit = false ∧ c ≠ '.' ∧ c ≠ 'e' ∧ c ≠ 'E'

variable {digits cs rest : List Char} {n : Numeral} {place : Int}

theorem spanDigits_append (hdigits : ∀ c ∈ digits, c.isDigit = true)
    (hrest : ∀ c ∈ rest.head?, c.isDigit = false) :
    spanDigits (digits ++ rest) = (digits, rest) := by
  unfold spanDigits
  rw [List.takeWhile_append_of_pos hdigits, List.dropWhile_append_of_pos hdigits]
  cases rest with
  | nil => simp
  | cons c rest =>
      have hc := hrest c rfl
      rw [List.takeWhile_cons_of_neg (by simp [hc]), List.dropWhile_cons_of_neg (by simp [hc]),
        List.append_nil]

namespace Numeral

/-- A numeral that can be spelled: digits, of which no nought stands in front of another before the
point. -/
structure Sound (n : Numeral) : Prop where
  whole : ∀ c ∈ n.whole, c.isDigit = true
  nonempty : n.whole ≠ []
  first : n.whole.head? = some '0' → n.whole = ['0']
  fraction : ∀ c ∈ n.fraction, c.isDigit = true

/-- An exponent as it is spelled, always with a sign. -/
def exponentChars : Option Int → List Char
  | none => []
  | some e => 'e' :: (if e < 0 then '-' else '+') :: Nat.toDigits 10 e.natAbs

/-- A fraction with its point, if there is one. -/
def fractionChars (fraction : List Char) : List Char :=
  if fraction.isEmpty then [] else '.' :: fraction

/-- The numeral spelled out, without its sign. -/
def unsigned (n : Numeral) : List Char :=
  n.whole ++ (fractionChars n.fraction ++ exponentChars n.exponent)

/-- The numeral spelled out. -/
def chars (n : Numeral) : List Char := if n.negative then '-' :: n.unsigned else n.unsigned

/-- The ways in which the sign of an exponent is spelled. -/
def signs : Bool → List (List Char)
  | true => [['-']]
  | false => [['+'], []]

/-- An exponent in any of its spellings, or none. -/
inductive SpellsExponent : Option Int → List Char → Prop
  | none : SpellsExponent none []
  | some {mark : Char} {negative : Bool} {sign digits : List Char}
      (hmark : mark = 'e' ∨ mark = 'E') (hsign : sign ∈ signs negative)
      (hdigits : ∀ c ∈ digits, c.isDigit = true) (hne : digits ≠ []) :
      SpellsExponent (some (if negative then -digitsValue digits else digitsValue digits))
        (mark :: (sign ++ digits))

/-- A numeral in any of its spellings. -/
inductive Spells (n : Numeral) : List Char → Prop
  | parts {exponent : List Char} (hsound : n.Sound)
      (hexponent : SpellsExponent n.exponent exponent) :
      Spells n ((if n.negative then ['-'] else []) ++
        (n.whole ++ (fractionChars n.fraction ++ exponent)))

/-! ### Reading a spelling -/

theorem isDigit_of_mem_toDigits {k : Nat} : ∀ c ∈ Nat.toDigits 10 k, c.isDigit = true :=
  fun _ hc => Nat.isDigit_of_mem_toDigits (by decide) (by decide) hc

theorem readSign_append {negative : Bool} {sign : List Char} (hsign : sign ∈ signs negative)
    (hcs : ∀ c ∈ cs.head?, c.isDigit = true) : readSign (sign ++ cs) = (negative, cs) := by
  cases negative with
  | true =>
      obtain rfl := List.mem_singleton.mp hsign
      rfl
  | false =>
      simp only [signs, List.mem_cons, List.not_mem_nil, or_false] at hsign
      rcases hsign with rfl | rfl
      · rfl
      · rw [List.nil_append]
        unfold readSign
        split
        · exact absurd (hcs _ rfl) (by decide)
        · exact absurd (hcs _ rfl) (by decide)
        · rfl

theorem scanExponent_spells {exponent : Option Int} (h : SpellsExponent exponent cs)
    (hrest : EndsNumeral rest) : scanExponent (cs ++ rest) = some (exponent, rest) := by
  cases h with
  | none =>
      cases rest with
      | nil => rfl
      | cons c rest =>
          obtain ⟨-, -, hlower, hupper⟩ := hrest c rfl
          exact if_neg fun h => h.elim hlower hupper
  | @some mark negative sign digits hmark hsign hdigits hne =>
      obtain ⟨d, ds, rfl⟩ := List.exists_cons_of_ne_nil hne
      have hspan := spanDigits_append hdigits fun c hc => (hrest c hc).1
      have hread : readSign (sign ++ (d :: ds ++ rest)) = (negative, d :: ds ++ rest) := by
        refine readSign_append hsign fun c hc => ?_
        obtain rfl := Option.some.inj hc
        exact hdigits _ List.mem_cons_self
      unfold scanExponent
      dsimp only [List.cons_append]
      rw [if_pos hmark, List.append_assoc, hread, hspan]

/-- The spelling that is written is one of those. -/
theorem spellsExponent_chars (exponent : Option Int) :
    SpellsExponent exponent (exponentChars exponent) := by
  cases exponent with
  | none => exact .none
  | some e =>
      have hvalue : digitsValue (Nat.toDigits 10 e.natAbs) = e.natAbs :=
        Nat.ofDigitChars_toDigits (by decide) (by decide)
      have hsign : [if e < 0 then '-' else '+'] ∈ signs (e < 0) := by
        by_cases h : e < 0 <;> simp [h, signs]
      have hspells := SpellsExponent.some (Or.inl rfl) hsign
        (isDigit_of_mem_toDigits (k := e.natAbs)) Nat.toDigits_ne_nil
      have he : (if decide (e < 0) then -((e.natAbs : Nat) : Int) else e.natAbs) = e := by
        simp only [decide_eq_true_eq]
        split <;> omega
      rwa [hvalue, he] at hspells

theorem spells_chars (h : n.Sound) : n.Spells n.chars := by
  have hspells := Spells.parts h (spellsExponent_chars n.exponent)
  have hchars : n.chars = (if n.negative then ['-'] else []) ++ n.unsigned := by
    unfold chars
    split <;> rfl
  rw [hchars]
  exact hspells

/-- What stands behind the digits of a numeral is no digit, and no point. -/
theorem isDigit_of_head_exponent {exponent : Option Int} (h : SpellsExponent exponent cs)
    (hrest : EndsNumeral rest) : ∀ c ∈ (cs ++ rest).head?, c.isDigit = false ∧ c ≠ '.' := by
  intro c hc
  cases h with
  | none => exact ⟨(hrest c hc).1, (hrest c hc).2.1⟩
  | some hmark _ _ _ =>
      obtain rfl := Option.some.inj hc
      rcases hmark with rfl | rfl <;> decide

theorem scanFraction_chars {fraction : List Char} (hdigits : ∀ c ∈ fraction, c.isDigit = true)
    (hrest : ∀ c ∈ rest.head?, c.isDigit = false ∧ c ≠ '.') :
    scanFraction (fractionChars fraction ++ rest) = some (fraction, rest) := by
  cases fraction with
  | nil =>
      cases rest with
      | nil => rfl
      | cons c rest =>
          have hpoint := (hrest c rfl).2
          show scanFraction (c :: rest) = some ([], c :: rest)
          unfold scanFraction
          split
          · rename_i heq
            exact absurd (List.cons.inj heq).1 hpoint
          · rfl
  | cons d ds =>
      have hspan := spanDigits_append hdigits fun c hc => (hrest c hc).1
      show scanFraction ('.' :: (d :: ds ++ rest)) = _
      rw [scanFraction, hspan]

theorem scanWhole_chars (h : n.Sound) (hrest : ∀ c ∈ rest.head?, c.isDigit = false) :
    scanWhole (n.whole ++ rest) = some (n.whole, rest) := by
  have hfirst := h.first
  obtain ⟨d, ds, hcons⟩ := List.exists_cons_of_ne_nil h.nonempty
  unfold scanWhole
  rw [spanDigits_append h.whole hrest]
  rw [hcons] at hfirst ⊢
  split
  · rename_i heq
    exact absurd (Prod.mk.inj heq).1 (List.cons_ne_nil d ds)
  · rename_i c more _ heq
    obtain ⟨rfl, hmore⟩ := List.cons.inj (Prod.mk.inj heq).1
    have halone := (List.cons.inj (hfirst rfl)).2
    rw [hmore] at halone
    contradiction
  · rename_i heq
    obtain ⟨rfl, rfl⟩ := Prod.mk.inj heq
    rfl

/-- **A sound numeral is read as it was spelled**, if what stands behind it does not go on with
it. -/
theorem scan_unsigned {exponent : List Char} (h : n.Sound)
    (hexponent : SpellsExponent n.exponent exponent) (hrest : EndsNumeral rest) :
    scan n.negative (n.whole ++ (fractionChars n.fraction ++ (exponent ++ rest))) =
      some (n, rest) := by
  have hfraction := isDigit_of_head_exponent hexponent hrest
  have hwhole : ∀ c ∈ (fractionChars n.fraction ++ (exponent ++ rest)).head?,
      c.isDigit = false := by
    intro c hc
    cases hdigits : n.fraction with
    | nil =>
        rw [hdigits] at hc
        exact (hfraction c hc).1
    | cons d ds =>
        rw [hdigits] at hc
        obtain rfl := Option.some.inj hc
        rfl
  unfold scan
  rw [scanWhole_chars h hwhole]
  dsimp only
  rw [scanFraction_chars h.fraction hfraction]
  dsimp only
  rw [scanExponent_spells hexponent hrest]

end Numeral

/-- Where no word, text or sign begins, there is a blank, a mark or a numeral. -/
theorem Lexeme.scan_cons {c : Char}
    (hfirst : c ≠ 'n' ∧ c ≠ 't' ∧ c ≠ 'f' ∧ c ≠ '"' ∧ c ≠ '-') (cs : List Char) :
    Lexeme.scan (c :: cs) =
      if isSpace c then Lexeme.scan cs
      else ((ofMark? c).map (· :: Lexeme.scan cs)).getD
        (((Numeral.scan false (c :: cs)).map fun p => .numeral p.1 :: Lexeme.scan p.2).getD
          [.stray]) := by
  obtain ⟨hn, ht, hf, hquote, hminus⟩ := hfirst
  rw [Lexeme.scan.eq_def]
  split
  · contradiction
  · rename_i heq
    exact absurd (List.cons.inj heq).1 hn
  · rename_i heq
    exact absurd (List.cons.inj heq).1 ht
  · rename_i heq
    exact absurd (List.cons.inj heq).1 hf
  · rename_i heq
    exact absurd (List.cons.inj heq).1 hquote
  · rename_i heq
    exact absurd (List.cons.inj heq).1 hminus
  · rename_i heq
    obtain ⟨rfl, rfl⟩ := List.cons.inj heq
    congr 1
    cases ofMark? c with
    | some mark => rfl
    | none =>
        dsimp only
        split <;> rename_i hscan <;> rw [hscan] <;> rfl

/-- A lexeme that begins with a digit is a numeral. -/
theorem Lexeme.scan_digit {d : Char} (hd : d.isDigit = true) (cs : List Char) :
    Lexeme.scan (d :: cs) =
      ((Numeral.scan false (d :: cs)).map fun p => .numeral p.1 :: Lexeme.scan p.2).getD
        [.stray] := by
  have hne : ∀ {c : Char}, c.isDigit = false → d ≠ c := by
    rintro c hc rfl
    rw [hd] at hc
    contradiction
  have hspace : isSpace d = false := by
    unfold isSpace
    simp [hne (c := ' ') rfl, hne (c := '\n') rfl, hne (c := '\t') rfl, hne (c := '\r') rfl]
  have hmark : ofMark? d = none := by
    unfold ofMark?
    simp [hne (c := '[') rfl, hne (c := ']') rfl, hne (c := '\x7b') rfl, hne (c := '\x7d') rfl,
      hne (c := ',') rfl, hne (c := ':') rfl]
  rw [Lexeme.scan_cons ⟨hne rfl, hne rfl, hne rfl, hne rfl, hne rfl⟩, hspace, hmark,
    if_neg Bool.false_ne_true]
  rfl

/-- **A spelled numeral is read as that numeral.** -/
theorem Lexeme.scan_numeral (h : n.Spells cs) (hrest : EndsNumeral rest) :
    Lexeme.scan (cs ++ rest) = .numeral n :: Lexeme.scan rest := by
  obtain ⟨hsound, hexponent⟩ := h
  have hscan := Numeral.scan_unsigned hsound hexponent hrest
  simp only [List.append_assoc]
  cases hnegative : n.negative with
  | true =>
      rw [hnegative] at hscan
      rw [if_pos rfl, List.singleton_append, Lexeme.scan]
      split <;> rename_i heq <;> rw [hscan] at heq
      · obtain ⟨rfl, rfl⟩ := Prod.mk.inj (Option.some.inj heq)
        rfl
      · contradiction
  | false =>
      rw [hnegative] at hscan
      obtain ⟨d, ds, hcons⟩ := List.exists_cons_of_ne_nil hsound.nonempty
      have hd : d.isDigit = true := hsound.whole d (by simp [hcons])
      rw [if_neg Bool.false_ne_true, List.nil_append]
      rw [hcons, List.cons_append] at hscan ⊢
      rw [Lexeme.scan_digit hd, hscan]
      rfl

end QueryBar.Json
