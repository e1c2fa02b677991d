/-
What is read off the front of a text in which an operator, a comparison and a text follow each
other.

The customary comparisons are made of one or two marks out of five, none of which begins an
operator, a bracket or a free text, or can be part of a word.  An operator word is told from what
follows by a blank.  A comparison is told from what follows by nothing: it is read as it was
written exactly if no longer one begins the same text (`ofOperand_append_iff`).
-/
import QueryBar.Proofs.Text
import QueryBar.Proofs.Tokens

namespace QueryBar

/-- The characters of which the customary comparisons are made. -/
def comparisonMarks : List Char := ['=', '!', '*', '<', '>']

namespace Config

/-- Operators and comparisons are spelled as usual.  The comparisons are those of texts, those of
numbers, or both. -/
structure Customary (c : Config) : Prop where
  andSymbol : c.andSymbol = "&"
  orSymbol : c.orSymbol = "|"
  comparisons : (∀ s, s ∈ c.comparisons ↔ s ∈ stringComparisons) ∨
    (∀ s, s ∈ c.comparisons ↔ s ∈ numberComparisons) ∨
    ∀ s, s ∈ c.comparisons ↔ s ∈ stringComparisons ∨ s ∈ numberComparisons

/-- Where the comparison is written in front of the text, no longer comparison can be read. -/
def SetsOff (c : Config) (s : String) (text : List Char) : Prop :=
  ∀ t ∈ c.comparisons, t.toList <+: s.toList ++ text → t.toList.length ≤ s.toList.length

variable {c : Config} {s : String} {a x : Char} {text : List Char}

theorem isComparison_iff : c.isComparison s = true ↔ s ∈ c.comparisons := List.contains_iff_mem

/-- A customary comparison is one mark or two. -/
theorem Customary.marks (h : c.Customary) (hs : s ∈ c.comparisons) :
    (∃ a ∈ comparisonMarks, s = String.singleton a) ∨
      ∃ a ∈ comparisonMarks, ∃ d ∈ comparisonMarks, s = String.ofList [a, d] := by
  have hall : (stringComparisons ++ numberComparisons).all (fun s =>
      comparisonMarks.any (s == String.singleton ·) ||
        comparisonMarks.any fun a => comparisonMarks.any (s == String.ofList [a, ·])) = true := by
    decide +kernel
  have hmem : s ∈ stringComparisons ++ numberComparisons := by
    refine List.mem_append.mpr ?_
    rcases h.comparisons with h | h | h
    · exact Or.inl ((h s).mp hs)
    · exact Or.inr ((h s).mp hs)
    · exact (h s).mp hs
  simpa only [Bool.or_eq_true, List.any_eq_true, beq_iff_eq] using List.all_eq_true.mp hall s hmem

theorem Customary.mark_of_single (h : c.Customary) (hs : String.singleton a ∈ c.comparisons) :
    a ∈ comparisonMarks := by
  rcases h.marks hs with ⟨d, hd, heq⟩ | ⟨d, -, d', -, heq⟩
  · have hsame : [a] = [d] := by simpa using congrArg String.toList heq
    obtain rfl := List.singleton_inj.mp hsame
    exact hd
  · have hsame : [a] = [d, d'] := by simpa using congrArg String.toList heq
    simp at hsame

theorem Customary.marks_of_pair (h : c.Customary) (hs : String.ofList [a, x] ∈ c.comparisons) :
    a ∈ comparisonMarks ∧ x ∈ comparisonMarks := by
  rcases h.marks hs with ⟨d, -, heq⟩ | ⟨d, hd, d', hd', heq⟩
  · have hsame : [a, x] = [d] := by simpa using congrArg String.toList heq
    simp at hsame
  · have hsame : [a, x] = [d, d'] := by simpa using congrArg String.toList heq
    obtain ⟨rfl, rfl⟩ : a = d ∧ x = d' := by simpa using hsame
    exact ⟨hd, hd'⟩

theorem Customary.exists_mark (h : c.Customary) (hs : s ∈ c.comparisons) :
    ∃ a ∈ comparisonMarks, ∃ rest, s.toList = a :: rest := by
  rcases h.marks hs with ⟨a, ha, rfl⟩ | ⟨a, ha, d, -, rfl⟩
  · exact ⟨a, ha, [], String.toList_singleton a⟩
  · exact ⟨a, ha, [d], String.toList_ofList⟩

theorem Customary.length_le (h : c.Customary) (hs : s ∈ c.comparisons) :
    s.toList.length ≤ 2 := by
  rcases h.marks hs with ⟨a, -, rfl⟩ | ⟨a, -, d, -, rfl⟩ <;> simp

/-- No comparison is longer than two marks. -/
theorem Customary.setsOff_pair (h : c.Customary) (a d : Char) (text : List Char) :
    c.SetsOff (String.ofList [a, d]) text := by
  intro t ht _
  rw [String.toList_ofList]
  exact h.length_le ht

/-- A single mark is set off unless it is the first of two that are a comparison together. -/
theorem Customary.setsOff_single_iff (h : c.Customary) :
    c.SetsOff (String.singleton a) (x :: text) ↔ c.isComparison (String.ofList [a, x]) = false := by
  rw [Bool.eq_false_iff, ne_eq, isComparison_iff]
  constructor
  · intro hsets hpair
    have hprefix : (String.ofList [a, x]).toList <+: (String.singleton a).toList ++ x :: text := by
      simp
    have hle := hsets _ hpair hprefix
    simp at hle
  · intro hpair t ht hprefix
    rcases h.marks ht with ⟨d, -, rfl⟩ | ⟨d, -, d', -, rfl⟩
    · simp
    · obtain ⟨rfl, rfl⟩ : d = a ∧ d' = x := by simpa using hprefix
      exact absurd ht hpair

/-- **A text that begins with something else than a mark is set off from any comparison.** -/
theorem Customary.setsOff (h : c.Customary) (hs : s ∈ c.comparisons) (hx : x ∉ comparisonMarks)
    (text : List Char) : c.SetsOff s (x :: text) := by
  rcases h.marks hs with ⟨a, -, rfl⟩ | ⟨a, -, d, -, rfl⟩
  · rw [h.setsOff_single_iff, Bool.eq_false_iff, ne_eq, isComparison_iff]
    exact fun hpair => hx (h.marks_of_pair hpair).2
  · exact h.setsOff_pair a d _

end Config

namespace Tokens

variable {c : Config} {f : Option QueryFunction} {operator : Option Operator} {o : Operator}
  {s : String} {a d x : Char} {cs text : List Char}

/-! ### Marks -/

theorem isBlank_of_mark (h : a ∈ comparisonMarks) : Text.isBlank a = false := by
  have hall : comparisonMarks.all (Text.isBlank · == false) = true := by decide
  exact beq_iff_eq.mp (List.all_eq_true.mp hall a h)

theorem isAlphanumeric_of_mark (h : a ∈ comparisonMarks) : Text.isAlphanumeric a = false := by
  have hall : comparisonMarks.all (Text.isAlphanumeric · == false) = true := by decide
  exact beq_iff_eq.mp (List.all_eq_true.mp hall a h)

/-- A mark begins no bracket. -/
theorem ofChar?_of_mark (h : a ∈ comparisonMarks) : Bracket.ofChar? a = none := by
  have hall : comparisonMarks.all (Bracket.ofChar? · == none) = true := by decide
  exact beq_iff_eq.mp (List.all_eq_true.mp hall a h)

/-! ### The operator -/

/-- A mark begins no operator. -/
theorem readOperator_of_mark (hc : c.Customary) (h : a ∈ comparisonMarks) (cs : List Char) :
    readOperator c (a :: cs) = (none, a :: cs) := by
  have hall : comparisonMarks.all (fun a =>
      a ≠ 'a' ∧ a ≠ 'o' ∧ String.singleton a ≠ "&" ∧ String.singleton a ≠ "|") = true := by
    decide +kernel
  obtain ⟨ha, ho, hampersand, hbar⟩ := of_decide_eq_true (List.all_eq_true.mp hall a h)
  have hword : ∀ word first rest, word = first :: rest → a ≠ first →
      afterWord? word (a :: cs) = none := by
    rintro word first rest rfl hne
    unfold afterWord?
    rw [if_neg (by simp [Ne.symm hne])]
  unfold readOperator
  rw [hword "and".toList 'a' ['n', 'd'] rfl ha, hword "or".toList 'o' ['r'] rfl ho]
  dsimp only
  rw [hc.andSymbol, hc.orSymbol, if_neg hampersand, if_neg hbar]

/-- **An operator that is written as a word with a blank after it is read.** -/
theorem readOperator_of_word (h : o ≠ .none) (cs : List Char) :
    readOperator c (o.name.toList ++ ' ' :: cs) = (some o, Text.trimStart cs) := by
  have hafter : ∀ word : List Char,
      afterWord? word (word ++ ' ' :: cs) = some (Text.trimStart cs) := by
    intro word
    have hblank : Text.isAlphanumeric ' ' = false := by decide
    unfold afterWord?
    rw [if_pos (List.isPrefixOf_iff_prefix.mpr (List.prefix_append ..)), List.drop_left]
    dsimp only
    rw [List.head?_cons, Option.any_some, hblank, if_neg Bool.false_ne_true,
      Text.trimStart_cons_blank (by decide)]
  unfold readOperator
  cases o with
  | none => exact absurd rfl h
  | and => rw [show Operator.and.name = "and" from rfl, hafter]
  | or =>
      have hother : afterWord? "and".toList ("or".toList ++ ' ' :: cs) = none := rfl
      rw [show Operator.or.name = "or" from rfl, hother, hafter]

/-! ### The comparison -/

/-- Two marks that are a comparison together are read as one. -/
theorem ofOperand_of_pair (h : String.ofList [a, d] ∈ c.comparisons) (cs : List Char) :
    ofOperand c f operator (a :: d :: cs) =
      { operator, comparison := some (String.ofList [a, d])
        remainder := String.ofList (Text.trimStart cs) } := by
  unfold ofOperand pair?
  dsimp only
  rw [if_pos (Config.isComparison_iff.mpr h)]

/-- A mark that is no comparison together with the next character is read alone. -/
theorem ofOperand_of_single (hpair : c.isComparison (String.ofList [a, x]) = false)
    (hbracket : Bracket.ofChar? a = none) (h : String.singleton a ∈ c.comparisons)
    (cs : List Char) :
    ofOperand c f operator (a :: x :: cs) =
      { operator, comparison := some (String.singleton a)
        remainder := String.ofList (Text.trimStart (x :: cs)) } := by
  have hnone : bracket? c f (a :: x :: cs) = none := by
    unfold bracket?
    split
    · exact hbracket
    · rfl
  unfold ofOperand pair?
  dsimp only
  rw [if_neg (by rw [hpair]; exact Bool.false_ne_true), hnone]
  unfold single?
  dsimp only
  rw [if_pos (Config.isComparison_iff.mpr h)]

/-- What begins neither a comparison nor a bracket is searched for as it is. -/
theorem ofOperand_of_word (hc : c.Customary) (ha : a ∉ comparisonMarks)
    (hbracket : Bracket.ofChar? a = none) (cs : List Char) :
    ofOperand c f operator (a :: cs) = { operator, remainder := String.ofList (a :: cs) } := by
  have hnone : bracket? c f (a :: cs) = none := by
    unfold bracket?
    split
    · exact hbracket
    · rfl
  have hpair : pair? c (a :: cs) = none := by
    cases cs with
    | nil => rfl
    | cons x cs =>
        refine if_neg fun h => ?_
        exact ha (hc.marks_of_pair (Config.isComparison_iff.mp h)).1
  have hsingle : single? c (a :: cs) = none := by
    refine if_neg fun h => ?_
    exact ha (hc.mark_of_single (Config.isComparison_iff.mp h))
  unfold ofOperand
  rw [hpair, hnone, hsingle]

/-- **A comparison that is written in front of a text is read again exactly if the text sets it
off.** -/
theorem ofOperand_append_iff (f : Option QueryFunction) (operator : Option Operator)
    (hc : c.Customary) (hs : s ∈ c.comparisons) (htext : Text.trimStart text = text)
    (hne : text ≠ []) :
    let tokens := ofOperand c f operator (s.toList ++ text)
    tokens.comparison = some s ∧ tokens.remainder = String.ofList text ↔ c.SetsOff s text := by
  obtain ⟨x, rest, rfl⟩ := List.exists_cons_of_ne_nil hne
  rcases hc.marks hs with ⟨a, ha, rfl⟩ | ⟨a, -, d, -, rfl⟩
  · rw [String.toList_singleton, List.singleton_append, hc.setsOff_single_iff]
    cases hpair : c.isComparison (String.ofList [a, x]) with
    | true =>
        rw [ofOperand_of_pair (Config.isComparison_iff.mp hpair)]
        refine iff_of_false ?_ (by simp)
        rintro ⟨hsame, -⟩
        have hlists := congrArg (Option.map String.toList) hsame
        simp at hlists
    | false =>
        rw [ofOperand_of_single hpair (ofChar?_of_mark ha) hs, htext]
        exact iff_of_true ⟨rfl, rfl⟩ rfl
  · rw [String.toList_ofList, List.cons_append, List.cons_append, List.nil_append,
      ofOperand_of_pair hs, htext]
    exact iff_of_true ⟨rfl, rfl⟩ (hc.setsOff_pair a d _)

/-! ### The whole text -/

/-- A text with no blanks at its ends is taken apart as it is, unless it is free text. -/
theorem ofText_of_trim {text : String} (htrim : Text.trim text.toList = text.toList)
    (htext : text.toList = a :: cs) (ha : a ≠ '"') :
    ofText c f text =
      let read := if c.readsOperators f then readOperator c text.toList else (none, text.toList)
      ofOperand c f read.1 read.2 := by
  have hliteral : literal? text.toList = none := by
    unfold literal?
    rw [Text.trimStart_of_trim htrim, htext]
    split
    · rename_i heq
      exact absurd (List.cons.inj heq).1 ha
    · rfl
  unfold ofText ofChars
  dsimp only
  rw [htrim, if_neg (by rw [htext]; simp), hliteral]

end Tokens

end QueryBar
