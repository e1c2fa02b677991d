/-
What a typed text is put together from.

Nothing is lost when a text is taken apart, and nothing is read twice: an operator, a comparison
and the search text stand in it one after another, with nothing but blanks between them
(`exists_layout_ofText`).  The rules for what is typed count characters, so that the text is never
cut inside of one, whatever the bytes it is kept in.
-/
import QueryBar.Proofs.Tokens.Lines

namespace QueryBar.Tokens

/-- The ways in which an operator is spelled, or none. -/
def spellings (c : Config) : Option Operator → List String
  | none => [""]
  | some .none => []
  | some .and => ["and", c.andSymbol]
  | some .or => ["or", c.orSymbol]

/-- A text in five pieces. -/
structure Layout where
  operator : String
  blanks : String
  comparison : String
  moreBlanks : String
  remainder : String

namespace Layout

def text (l : Layout) : String :=
  l.operator ++ l.blanks ++ l.comparison ++ l.moreBlanks ++ l.remainder

/-- What stands in front of each of the places where the text is cut. -/
def fronts (l : Layout) : List String :=
  [l.operator, l.operator ++ l.blanks, l.operator ++ l.blanks ++ l.comparison,
    l.operator ++ l.blanks ++ l.comparison ++ l.moreBlanks]

/-- The pieces say what the tokens say, and what the tokens do not say is blank. -/
structure Shows (c : Config) (l : Layout) (t : Tokens) : Prop where
  operator : l.operator ∈ spellings c t.operator
  blanks : ∀ a ∈ l.blanks.toList, Text.isBlank a = true
  /-- Without an operator the comparison is at the front. -/
  bare : t.operator = none → l.blanks = ""
  comparison : l.comparison = t.comparison.getD ""
  moreBlanks : ∀ a ∈ l.moreBlanks.toList, Text.isBlank a = true
  /-- Without a comparison there is nothing more to skip. -/
  plain : t.comparison = none → l.moreBlanks = ""
  remainder : l.remainder = t.remainder
  trimmed : Text.trim l.remainder.toList = l.remainder.toList

/-- A text is cut between its characters, at the byte where a front ends. -/
theorem isValid_of_mem_fronts {l : Layout} {front : String} (h : front ∈ l.fronts) :
    front.rawEndPos.IsValid l.text := by
  rw [String.Pos.Raw.isValid_iff_exists_append]
  suffices hrest : ∃ rest, l.text = front ++ rest by
    obtain ⟨rest, hrest⟩ := hrest
    exact ⟨front, rest, hrest, rfl⟩
  unfold fronts at h
  unfold text
  simp only [List.mem_cons, List.not_mem_nil, or_false] at h
  rcases h with rfl | rfl | rfl | rfl
  · exact ⟨l.blanks ++ l.comparison ++ l.moreBlanks ++ l.remainder, by
      simp only [String.append_assoc]⟩
  · exact ⟨l.comparison ++ l.moreBlanks ++ l.remainder, by simp only [String.append_assoc]⟩
  · exact ⟨l.moreBlanks ++ l.remainder, by simp only [String.append_assoc]⟩
  · exact ⟨l.remainder, rfl⟩

end Layout

variable {c : Config} {f : Option QueryFunction} {cs : List Char} {text : String}

/-! ### The pieces of an operator and of an operand -/

/-- What is dropped for a prefix is the prefix and the blanks after it. -/
theorem exists_blanks_drop (cs : List Char) (count : Nat) :
    ∃ blanks, (∀ a ∈ blanks, Text.isBlank a = true) ∧
      cs = cs.take count ++ blanks ++ Text.trimStart (cs.drop count) := by
  refine ⟨(cs.drop count).takeWhile Text.isBlank, fun a ha => List.mem_takeWhile_imp ha, ?_⟩
  calc cs = cs.take count ++ cs.drop count := (List.take_append_drop ..).symm
    _ = cs.take count ++ ((cs.drop count).takeWhile Text.isBlank ++
        (cs.drop count).dropWhile Text.isBlank) := by rw [List.takeWhile_append_dropWhile]
    _ = _ := (List.append_assoc ..).symm

/-- As many characters as an operator takes up are a spelling of it. -/
theorem mem_spellings_of_spells {o : Operator} {count : Nat} (h : Spells c cs o count) :
    String.ofList (cs.take count) ∈ spellings c (some o) := by
  have hsymbol : ∀ symbol, BeginsWithSymbol symbol cs → String.ofList (cs.take 1) = symbol := by
    rintro symbol ⟨x, hx, rfl⟩
    obtain ⟨rest, rfl⟩ := List.head?_eq_some_iff.mp hx
    rfl
  have hword : ∀ word, BeginsWithWord word cs → cs.take word.length = word :=
    fun word h => (List.prefix_iff_eq_take.mp h.1).symm
  cases h with
  | andWord h => rw [show cs.take 3 = _ from hword _ h]; exact List.mem_cons_self
  | orWord _ h => rw [show cs.take 2 = _ from hword _ h]; exact List.mem_cons_self
  | andSymbol _ _ h => rw [hsymbol _ h]; exact List.mem_cons_of_mem _ List.mem_cons_self
  | orSymbol _ _ _ h => rw [hsymbol _ h]; exact List.mem_cons_of_mem _ List.mem_cons_self

/-- **A text is an operator, blanks and the operand.** -/
theorem Splits.pieces {operator : Option Operator} {operand : List Char}
    (h : Splits c f cs operator operand) :
    ∃ spelling blanks, spelling ∈ spellings c operator ∧
      (∀ a ∈ blanks, Text.isBlank a = true) ∧ (operator = none → blanks = []) ∧
      cs = spelling.toList ++ blanks ++ operand := by
  cases h with
  | @operator o count _ hspells =>
      obtain ⟨blanks, hblanks, hcs⟩ := exists_blanks_drop cs count
      exact ⟨_, blanks, mem_spellings_of_spells hspells, hblanks, by simp,
        by rwa [String.toList_ofList]⟩
  | plain _ => exact ⟨"", [], List.mem_cons_self, by simp, fun _ => rfl, rfl⟩

/-- **An operand that is no bracket is a comparison, blanks and the search text.** -/
theorem Operand.pieces {comparison : Option String} {remainder : List Char}
    (h : Operand c f cs comparison none remainder) :
    ∃ blanks, (∀ a ∈ blanks, Text.isBlank a = true) ∧ (comparison = none → blanks = []) ∧
      cs = (comparison.getD "").toList ++ blanks ++ remainder := by
  have hpieces : ∀ count, ∃ blanks, (∀ a ∈ blanks, Text.isBlank a = true) ∧
      (some (String.ofList (cs.take count)) = none → blanks = []) ∧
      cs = (String.ofList (cs.take count)).toList ++ blanks ++
        Text.trimStart (cs.drop count) := by
    intro count
    obtain ⟨blanks, hblanks, hcs⟩ := exists_blanks_drop cs count
    exact ⟨blanks, hblanks, by simp, by rwa [String.toList_ofList]⟩
  cases h with
  | pair _ => exact hpieces 2
  | single _ _ _ => exact hpieces 1
  | plain _ _ _ => exact ⟨[], by simp, fun _ => rfl, rfl⟩

/-! ### The whole text -/

theorem Derives.exists_layout {t : Tokens} (h : Derives c f text t) (hbracket : t.bracket = none) :
    ∃ l : Layout, l.Shows c t ∧ l.text = String.ofList (Text.trim text.toList) := by
  obtain ⟨hsplit, hoperand⟩ := h
  rename_i operator operand remainder comparison bracket
  obtain rfl : bracket = none := hbracket
  obtain ⟨spelling, blanks, hspelling, hblanks, hbare, hfront⟩ := hsplit.pieces
  obtain ⟨moreBlanks, hmore, hplain, hback⟩ := hoperand.pieces
  refine ⟨⟨spelling, .ofList blanks, comparison.getD "", .ofList moreBlanks, .ofList remainder⟩,
    { operator := hspelling
      blanks := by simpa using hblanks
      bare := fun hnone => congrArg String.ofList (hbare hnone)
      comparison := rfl
      moreBlanks := by simpa using hmore
      plain := fun hnone => congrArg String.ofList (hplain hnone)
      remainder := rfl
      trimmed := ?_ }, ?_⟩
  · rw [String.toList_ofList]
    exact trim_of_operand hoperand (trim_of_splits hsplit (Text.trim_trim _))
  · rw [hfront, hback]
    unfold Layout.text
    simp only [String.ofList_append, String.ofList_toList, String.append_assoc]

/-- **A text that is neither free text nor a bracket is, but for the blanks around it, an operator,
blanks, a comparison, blanks and what is left to be searched for.**  It is cut between characters
only. -/
theorem exists_layout_ofText (hfree : (ofText c f text).freeText = false)
    (hbracket : (ofText c f text).bracket = none) :
    ∃ l : Layout, l.Shows c (ofText c f text) ∧
      l.text = String.ofList (Text.trim text.toList) ∧
      ∀ front ∈ l.fronts, front.rawEndPos.IsValid (String.ofList (Text.trim text.toList)) := by
  suffices hlayout : ∃ l : Layout, l.Shows c (ofText c f text) ∧
      l.text = String.ofList (Text.trim text.toList) by
    obtain ⟨l, hshows, htext⟩ := hlayout
    exact ⟨l, hshows, htext, fun front hfront => htext ▸ Layout.isValid_of_mem_fronts hfront⟩
  by_cases hblank : Text.trim text.toList = []
  · rw [ofText_of_blank hblank, hblank]
    exact ⟨⟨"", "", "", "", ""⟩, ⟨List.mem_cons_self, by simp, fun _ => rfl, rfl, by simp,
      fun _ => rfl, rfl, rfl⟩, rfl⟩
  · have hmark : ¬ freeTextMark.toList <+: Text.trimStart text.toList := by
      intro hmark
      rw [freeText_of_mark_after_blanks hblank hmark] at hfree
      contradiction
    exact (derives_ofText hblank hmark).exists_layout hbracket

/-- Comparisons and a symbol whose characters have more than one byte. -/
def wide : Config :=
  { Config.ofSources [{ name := "größe", title := "Größen", comparisons := ["≥", "≠≠"] }] with
    andSymbol := "∧" }

/-- The characters of a text may have different numbers of bytes. -/
theorem exists_layout_ofText_wide :
    (ofText wide none " ∧ ≠≠ \u2003straße ").freeText = false ∧
      (ofText wide none " ∧ ≠≠ \u2003straße ").bracket = none ∧
      ∃ l : Layout, l.Shows wide
          { operator := some .and, comparison := some "≠≠", remainder := "straße" } ∧
        l.text = "∧ ≠≠ \u2003straße" ∧
        ∀ front ∈ l.fronts, front.rawEndPos.IsValid "∧ ≠≠ \u2003straße" := by
  have hfree : (ofText wide none " ∧ ≠≠ \u2003straße ").freeText = false := by decide +kernel
  have hbracket : (ofText wide none " ∧ ≠≠ \u2003straße ").bracket = none := by decide +kernel
  obtain ⟨l, hshows, htext, hvalid⟩ := exists_layout_ofText hfree hbracket
  have htokens : ofText wide none " ∧ ≠≠ \u2003straße " =
      { operator := some .and, comparison := some "≠≠", remainder := "straße" } := by
    decide +kernel
  have htrim : String.ofList (Text.trim " ∧ ≠≠ \u2003straße ".toList) = "∧ ≠≠ \u2003straße" := by
    decide +kernel
  rw [htokens] at hshows
  rw [htrim] at htext hvalid
  exact ⟨hfree, hbracket, l, hshows, htext, hvalid⟩

end QueryBar.Tokens
