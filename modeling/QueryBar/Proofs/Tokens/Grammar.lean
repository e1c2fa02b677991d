/-
The grammar of what is typed.

A text is an operator and an operand.  An operator is spelled in one of four ways, and an operand
begins in one of four ways; of several that apply to a text the first one counts.  The rules say
so each for itself: a rule that comes later asks that those before it do not apply.  Taking a
text apart is then the same as deriving its parts by the rules (`ofText_eq_iff_derives`).
-/
import QueryBar.Tokens

namespace QueryBar.Tokens

/-! ### The rules -/

/-- The text begins with the word, and the word ends there: what follows, if anything, is neither
letter nor digit. -/
def BeginsWithWord (word cs : List Char) : Prop :=
  word <+: cs ∧ ∀ x, cs[word.length]? = some x → Text.isAlphanumeric x = false

/-- The first character of the text is the symbol. -/
def BeginsWithSymbol (symbol : String) (cs : List Char) : Prop :=
  ∃ x, cs.head? = some x ∧ String.singleton x = symbol

/-- The first characters of the text, as many as are asked for, are a comparison together. -/
def BeginsWithComparison (c : Config) (count : Nat) (cs : List Char) : Prop :=
  count ≤ cs.length ∧ c.isComparison (String.ofList (cs.take count)) = true

/-- A text begins with the spelling of an operator, which takes up some characters. -/
inductive Spells (c : Config) (cs : List Char) : Operator → Nat → Prop
  | andWord (h : BeginsWithWord "and".toList cs) : Spells c cs .and 3
  | orWord (hand : ¬ BeginsWithWord "and".toList cs) (h : BeginsWithWord "or".toList cs) :
      Spells c cs .or 2
  | andSymbol (hand : ¬ BeginsWithWord "and".toList cs) (hor : ¬ BeginsWithWord "or".toList cs)
      (h : BeginsWithSymbol c.andSymbol cs) : Spells c cs .and 1
  | orSymbol (hand : ¬ BeginsWithWord "and".toList cs) (hor : ¬ BeginsWithWord "or".toList cs)
      (hsymbol : ¬ BeginsWithSymbol c.andSymbol cs) (h : BeginsWithSymbol c.orSymbol cs) :
      Spells c cs .or 1

/-- What a text that is not blank has for an operator, and the operand after it. -/
inductive Splits (c : Config) (f : Option QueryFunction) (cs : List Char) :
    Option Operator → List Char → Prop
  | operator {o : Operator} {count : Nat} (hreads : c.readsOperators f = true)
      (h : Spells c cs o count) : Splits c f cs (some o) (Text.trimStart (cs.drop count))
  | plain (h : c.readsOperators f = true → ∀ o count, ¬ Spells c cs o count) :
      Splits c f cs none cs

/-- What an operand has for a comparison, for a bracket and for a text to be searched for. -/
inductive Operand (c : Config) (f : Option QueryFunction) (cs : List Char) :
    Option String → Option Bracket → List Char → Prop
  | pair (h : BeginsWithComparison c 2 cs) :
      Operand c f cs (some (String.ofList (cs.take 2))) none (Text.trimStart (cs.drop 2))
  | bracket {b : Bracket} (hpair : ¬ BeginsWithComparison c 2 cs)
      (hreads : c.readsBrackets f = true) (h : b.symbol.toList <+: cs) :
      Operand c f cs none (some b) []
  | single (hpair : ¬ BeginsWithComparison c 2 cs)
      (hbracket : c.readsBrackets f = true → ∀ b : Bracket, ¬ b.symbol.toList <+: cs)
      (h : BeginsWithComparison c 1 cs) :
      Operand c f cs (some (String.ofList (cs.take 1))) none (Text.trimStart (cs.drop 1))
  | plain (hpair : ¬ BeginsWithComparison c 2 cs)
      (hbracket : c.readsBrackets f = true → ∀ b : Bracket, ¬ b.symbol.toList <+: cs)
      (hsingle : ¬ BeginsWithComparison c 1 cs) : Operand c f cs none none cs

/-- The parts of a text that is neither blank nor free text, by the rules. -/
inductive Derives (c : Config) (f : Option QueryFunction) (text : String) : Tokens → Prop
  | parts {operator : Option Operator} {operand remainder : List Char}
      {comparison : Option String} {bracket : Option Bracket}
      (hsplit : Splits c f (Text.trim text.toList) operator operand)
      (hoperand : Operand c f operand comparison bracket remainder) :
      Derives c f text
        { operator, comparison, bracket, remainder := String.ofList remainder, freeText := false }

variable {c : Config} {f : Option QueryFunction} {cs word rest : List Char} {text symbol : String}

/-! ### Operators -/

theorem afterWord?_eq_some (h : BeginsWithWord word cs) :
    afterWord? word cs = some (Text.trimStart (cs.drop word.length)) := by
  obtain ⟨hfront, hends⟩ := h
  have hedge : (cs.drop word.length).head?.any Text.isAlphanumeric = false := by
    rw [List.head?_drop]
    cases hnext : cs[word.length]? with
    | none => rfl
    | some x => exact hends x hnext
  unfold afterWord?
  dsimp only
  rw [if_pos (List.isPrefixOf_iff_prefix.mpr hfront), hedge, if_neg Bool.false_ne_true]

theorem afterWord?_eq_none (h : ¬ BeginsWithWord word cs) : afterWord? word cs = none := by
  unfold afterWord?
  split
  · rename_i hfront
    dsimp only
    split
    · rfl
    · rename_i hedge
      refine absurd ⟨List.isPrefixOf_iff_prefix.mp hfront, fun x hx => ?_⟩ h
      rw [List.head?_drop, hx] at hedge
      exact Bool.eq_false_iff.mpr hedge
  · rfl

theorem beginsWithSymbol_cons_iff {x : Char} :
    BeginsWithSymbol symbol (x :: rest) ↔ String.singleton x = symbol := by
  unfold BeginsWithSymbol
  simp

theorem not_beginsWithSymbol_nil : ¬ BeginsWithSymbol symbol [] := by
  rintro ⟨x, hx, -⟩
  contradiction

/-- An operator that is spelled is read, with what follows it. -/
theorem readOperator_of_spells {o : Operator} {count : Nat} (h : Spells c cs o count) :
    readOperator c cs = (some o, Text.trimStart (cs.drop count)) := by
  unfold readOperator
  cases h with
  | andWord h => rw [afterWord?_eq_some h]; rfl
  | orWord hand h =>
      rw [afterWord?_eq_none hand, afterWord?_eq_some h]
      rfl
  | andSymbol hand hor h =>
      rw [afterWord?_eq_none hand, afterWord?_eq_none hor]
      cases cs with
      | nil => exact absurd h not_beginsWithSymbol_nil
      | cons x rest => exact if_pos (beginsWithSymbol_cons_iff.mp h)
  | orSymbol hand hor hsymbol h =>
      rw [afterWord?_eq_none hand, afterWord?_eq_none hor]
      cases cs with
      | nil => exact absurd h not_beginsWithSymbol_nil
      | cons x rest =>
          dsimp only
          rw [if_neg fun hx => hsymbol (beginsWithSymbol_cons_iff.mpr hx),
            if_pos (beginsWithSymbol_cons_iff.mp h)]
          rfl

/-- Where no operator is spelled none is read, and nothing is taken away. -/
theorem readOperator_of_not_spells (h : ∀ o count, ¬ Spells c cs o count) :
    readOperator c cs = (none, cs) := by
  have hand : ¬ BeginsWithWord "and".toList cs := fun hand => h _ _ (.andWord hand)
  have hor : ¬ BeginsWithWord "or".toList cs := fun hor => h _ _ (.orWord hand hor)
  have handSymbol : ¬ BeginsWithSymbol c.andSymbol cs := fun hs => h _ _ (.andSymbol hand hor hs)
  have horSymbol : ¬ BeginsWithSymbol c.orSymbol cs :=
    fun hs => h _ _ (.orSymbol hand hor handSymbol hs)
  unfold readOperator
  rw [afterWord?_eq_none hand, afterWord?_eq_none hor]
  cases cs with
  | nil => rfl
  | cons x rest =>
      dsimp only
      rw [if_neg fun hx => handSymbol (beginsWithSymbol_cons_iff.mpr hx),
        if_neg fun hx => horSymbol (beginsWithSymbol_cons_iff.mpr hx)]

/-- **The operator and the operand are the ones that the rules give.** -/
theorem read_of_splits {operator : Option Operator} {operand : List Char}
    (h : Splits c f cs operator operand) :
    (if c.readsOperators f then readOperator c cs else (none, cs)) = (operator, operand) := by
  cases h with
  | operator hreads h => rw [if_pos hreads, readOperator_of_spells h]
  | plain h =>
      split
      · rename_i hreads
        exact readOperator_of_not_spells (h hreads)
      · rfl

/-- The rules for operators leave no text out. -/
theorem exists_splits (c : Config) (f : Option QueryFunction) (cs : List Char) :
    ∃ operator operand, Splits c f cs operator operand := by
  by_cases h : c.readsOperators f = true ∧ ∃ o count, Spells c cs o count
  · obtain ⟨hreads, o, count, hspells⟩ := h
    exact ⟨_, _, .operator hreads hspells⟩
  · refine ⟨_, _, .plain fun hreads o count hspells => ?_⟩
    exact h ⟨hreads, o, count, hspells⟩

/-! ### Operands -/

theorem pair?_eq_some (h : BeginsWithComparison c 2 cs) :
    pair? c cs = some (String.ofList (cs.take 2), Text.trimStart (cs.drop 2)) := by
  obtain ⟨hlong, hcomparison⟩ := h
  match cs, hlong with
  | a :: b :: rest, _ => exact if_pos hcomparison

theorem pair?_eq_none (h : ¬ BeginsWithComparison c 2 cs) : pair? c cs = none := by
  match cs with
  | [] | [_] => rfl
  | a :: b :: rest => exact if_neg fun hcomparison => h ⟨by simp, hcomparison⟩

theorem single?_eq_some (h : BeginsWithComparison c 1 cs) :
    single? c cs = some (String.ofList (cs.take 1), Text.trimStart (cs.drop 1)) := by
  obtain ⟨hlong, hcomparison⟩ := h
  match cs, hlong with
  | a :: rest, _ => exact if_pos hcomparison

theorem single?_eq_none (h : ¬ BeginsWithComparison c 1 cs) : single? c cs = none := by
  match cs with
  | [] => rfl
  | a :: rest => exact if_neg fun hcomparison => h ⟨by simp, hcomparison⟩

/-- A bracket is read where brackets are, if the text begins with it. -/
theorem bracket?_eq_some_iff {b : Bracket} :
    bracket? c f cs = some b ↔ c.readsBrackets f = true ∧ b.symbol.toList <+: cs := by
  have hchar : cs.head?.bind Bracket.ofChar? = some b ↔ b.symbol.toList <+: cs := by
    cases cs with
    | nil => cases b <;> simp [Bracket.symbol]
    | cons x rest =>
        rw [List.head?_cons, Option.bind_some]
        unfold Bracket.ofChar?
        cases b with
        | opening =>
            rw [show Bracket.opening.symbol.toList = ['('] from rfl, List.cons_prefix_cons]
            grind
        | closing =>
            rw [show Bracket.closing.symbol.toList = [')'] from rfl, List.cons_prefix_cons]
            grind
  unfold bracket?
  split
  · rename_i hreads
    rw [hchar, and_iff_right hreads]
  · rename_i hunread
    exact iff_of_false (by simp) fun h => hunread h.1

theorem bracket?_eq_none
    (h : c.readsBrackets f = true → ∀ b : Bracket, ¬ b.symbol.toList <+: cs) :
    bracket? c f cs = none := by
  rw [Option.eq_none_iff_forall_ne_some]
  intro b hb
  obtain ⟨hreads, hbegins⟩ := bracket?_eq_some_iff.mp hb
  exact h hreads b hbegins

/-- **The parts of an operand are the ones that the rules give.** -/
theorem ofOperand_of_operand {operator : Option Operator} {comparison : Option String}
    {bracket : Option Bracket} {remainder : List Char}
    (h : Operand c f cs comparison bracket remainder) :
    ofOperand c f operator cs =
      { operator, comparison, bracket, remainder := String.ofList remainder } := by
  unfold ofOperand
  cases h with
  | pair h => rw [pair?_eq_some h]
  | bracket hpair hreads h =>
      rw [pair?_eq_none hpair, bracket?_eq_some_iff.mpr ⟨hreads, h⟩]
  | single hpair hbracket h =>
      rw [pair?_eq_none hpair, bracket?_eq_none hbracket, single?_eq_some h]
  | plain hpair hbracket hsingle =>
      rw [pair?_eq_none hpair, bracket?_eq_none hbracket, single?_eq_none hsingle]

/-- The rules for operands leave no text out. -/
theorem exists_operand (c : Config) (f : Option QueryFunction) (cs : List Char) :
    ∃ comparison bracket remainder, Operand c f cs comparison bracket remainder := by
  by_cases hpair : BeginsWithComparison c 2 cs
  · exact ⟨_, _, _, .pair hpair⟩
  · by_cases hbracket : c.readsBrackets f = true ∧ ∃ b : Bracket, b.symbol.toList <+: cs
    · obtain ⟨hreads, b, hb⟩ := hbracket
      exact ⟨_, _, _, .bracket hpair hreads hb⟩
    · have hnone : c.readsBrackets f = true → ∀ b : Bracket, ¬ b.symbol.toList <+: cs :=
        fun hreads b hb => hbracket ⟨hreads, b, hb⟩
      by_cases hsingle : BeginsWithComparison c 1 cs
      · exact ⟨_, _, _, .single hpair hnone hsingle⟩
      · exact ⟨_, _, _, .plain hpair hnone hsingle⟩

/-! ### The whole text -/

/-- Free text is told by its mark alone. -/
theorem literal?_eq_none (h : ¬ freeTextMark.toList <+: Text.trimStart cs) :
    literal? cs = none := by
  unfold literal?
  split
  · rename_i rest hrest
    refine absurd ?_ h
    rw [hrest]
    exact ⟨rest, rfl⟩
  · rfl

/-- What the rules derive is what the text is taken apart into. -/
theorem ofText_of_derives {t : Tokens} (hblank : Text.trim text.toList ≠ [])
    (hfree : ¬ freeTextMark.toList <+: Text.trimStart text.toList) (h : Derives c f text t) :
    ofText c f text = t := by
  obtain ⟨hsplit, hoperand⟩ := h
  unfold ofText ofChars
  dsimp only
  rw [if_neg (by simpa using hblank), literal?_eq_none hfree, read_of_splits hsplit]
  exact ofOperand_of_operand hoperand

/-- The parts of a text are derived by the rules. -/
theorem derives_ofText (hblank : Text.trim text.toList ≠ [])
    (hfree : ¬ freeTextMark.toList <+: Text.trimStart text.toList) :
    Derives c f text (ofText c f text) := by
  obtain ⟨operator, operand, hsplit⟩ := exists_splits c f (Text.trim text.toList)
  obtain ⟨comparison, bracket, remainder, hoperand⟩ := exists_operand c f operand
  have hderives := Derives.parts hsplit hoperand
  rwa [ofText_of_derives hblank hfree hderives]

/-- **Taking a text apart is deriving its parts by the rules**, for every text that is neither
blank nor free text.  In particular, where the operand begins with a comparison of two characters,
that is the comparison, whether or not the first of them is one as well. -/
theorem ofText_eq_iff_derives (hblank : Text.trim text.toList ≠ [])
    (hfree : ¬ freeTextMark.toList <+: Text.trimStart text.toList) :
    (∀ t, ofText c f text = t ↔ Derives c f text t) ∧
      ∀ operator operand, Splits c f (Text.trim text.toList) operator operand →
        BeginsWithComparison c 2 operand →
          (ofText c f text).comparison = some (String.ofList (operand.take 2)) := by
  refine ⟨fun t => ⟨?_, ofText_of_derives hblank hfree⟩, fun operator operand hsplit hpair => ?_⟩
  · rintro rfl
    exact derives_ofText hblank hfree
  · rw [ofText_of_derives hblank hfree (.parts hsplit (.pair hpair))]

/-- Sizes, compared as numbers are. -/
def sizes : Config :=
  .ofSources [{ name := "size", title := "Sizes", comparisons := numberComparisons }]

/-- Of two comparisons that begin the operand the longer one is derived. -/
theorem ofText_eq_iff_derives_sizes :
    Text.trim " or >=5 ".toList ≠ [] ∧
      ¬ freeTextMark.toList <+: Text.trimStart " or >=5 ".toList ∧
      sizes.isComparison ">" = true ∧
      Derives sizes none " or >=5 "
        { operator := some .or, comparison := some ">=", remainder := "5" } := by
  have hblank : Text.trim " or >=5 ".toList ≠ [] := by decide
  have hfree : ¬ freeTextMark.toList <+: Text.trimStart " or >=5 ".toList := by decide
  exact ⟨hblank, hfree, by decide,
    ((ofText_eq_iff_derives hblank hfree).1 _).mp (by decide +kernel)⟩

end QueryBar.Tokens
