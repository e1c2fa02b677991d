/-
Lines that are put together, taken apart again.

A line is an operator, a comparison and a search text, each with a blank behind it but the last.
What is read off any text can be written as a line again (`writable_ofText`), and another operator
or another comparison can be put in its place (`Writable.or`).  Such a line is read as its parts,
with one exception: without an operator, a comparison that begins with the symbol of one is taken
for that operator (`Writable.reads_iff`).

Blanks at the end of a line are not read, so that a part with nothing behind it stands without its
blank.
-/
import QueryBar.Proofs.Tokens
import QueryBar.Proofs.Tokens.Grammar

namespace QueryBar

namespace Config

/-- The comparisons have one or two characters, none of which is a blank, a letter, a digit, a quote
or a bracket. -/
structure PlainComparisons (c : Config) : Prop where
  short : ∀ x ∈ c.comparisons, x.toList.length = 1 ∨ x.toList.length = 2
  plain : ∀ x ∈ c.comparisons, ∀ a ∈ x.toList, Text.isBlank a = false ∧
    Text.isAlphanumeric a = false ∧ a ≠ '"' ∧ Bracket.ofChar? a = none

/-- The text begins with the symbol of an operator. -/
def ReadsAsOperator (c : Config) (text : String) : Prop :=
  Tokens.BeginsWithSymbol c.andSymbol text.toList ∨ Tokens.BeginsWithSymbol c.orSymbol text.toList

end Config

namespace Tokens

/-- A part of a line, if there is one, with what stands behind it. -/
def headed (part : Option String) (cs : List Char) : List Char :=
  match part with
  | none => cs
  | some part => part.toList ++ Text.behind cs

/-- A line of an operator, a comparison and a search text. -/
def line (operator : Option Operator) (comparison : Option String) (search : String) : String :=
  (match operator with
    | none => ""
    | some o => o.name ++ " ") ++
  (match comparison with
    | none => ""
    | some x => x ++ " ") ++ search

variable {c : Config} {f : Option QueryFunction} {o : Operator} {operator : Option Operator}
  {x : String} {comparison : Option String} {search text : String} {cs : List Char} {t : Tokens}

/-! ### The parts of a line -/

theorem trim_name (h : o ≠ .none) :
    Text.trim o.name.toList = o.name.toList ∧ o.name.toList ≠ [] := by
  cases o with
  | none => contradiction
  | and => decide
  | or => decide

/-- A comparison is one character or two, and nothing of it is trimmed. -/
theorem trim_comparison (hc : c.PlainComparisons) (hx : x ∈ c.comparisons) :
    Text.trim x.toList = x.toList ∧ x.toList ≠ [] := by
  have hplain := hc.plain x hx
  rcases hc.short x hx with hlength | hlength
  · obtain ⟨a, ha⟩ := List.length_eq_one_iff.mp hlength
    have hblank := (hplain a (by simp [ha])).1
    rw [ha]
    exact ⟨by simp [Text.trim, Text.trimStart, Text.trimEnd, hblank], by simp⟩
  · obtain ⟨a, d, ha⟩ := List.length_eq_two.mp hlength
    have hblank := (hplain a (by simp [ha])).1
    have hblank' := (hplain d (by simp [ha])).1
    rw [ha]
    exact ⟨by simp [Text.trim, Text.trimStart, Text.trimEnd, hblank, hblank'], by simp⟩

/-- What is read of a line is its parts, each after one blank. -/
theorem trim_line (hc : c.PlainComparisons) (ho : operator ≠ some .none)
    (hx : ∀ x, comparison = some x → x ∈ c.comparisons)
    (hs : Text.trim search.toList = search.toList) :
    Text.trim (line operator comparison search).toList =
      headed (operator.map Operator.name) (headed comparison search.toList) := by
  unfold line
  cases operator with
  | none =>
      cases comparison with
      | none => simpa [headed] using hs
      | some x =>
          obtain ⟨hx, hne⟩ := trim_comparison hc (hx x rfl)
          simpa [headed] using Text.trim_append_blank hx hne hs
  | some o =>
      obtain ⟨hname, hne⟩ := trim_name (o := o) fun hnone => ho (congrArg some hnone)
      cases comparison with
      | none => simpa [headed] using Text.trim_append_blank hname hne hs
      | some x =>
          obtain ⟨hx, hxne⟩ := trim_comparison hc (hx x rfl)
          obtain ⟨a, rest, hcons⟩ := List.exists_cons_of_ne_nil hxne
          -- The operator and the comparison together stand in front of the search text.
          have hfront := Text.trim_append_blank hname hne hx
          rw [hcons, Text.behind_cons, ← hcons] at hfront
          have hline := Text.trim_append_blank hfront (by simp) hs
          simpa [headed, hcons] using hline

/-- A comparison is read off what it stands in front of. -/
theorem operand_headed (hc : c.PlainComparisons) (hx : x ∈ c.comparisons) (hs : Text.trim cs = cs) :
    Operand c f (headed (some x) cs) (some x) none cs := by
  have hrest := Text.trimStart_behind hs
  have hcomparison : c.isComparison x = true := List.contains_iff_mem.mpr hx
  unfold headed
  dsimp only
  rcases hc.short x hx with hlength | hlength
  · obtain ⟨a, ha⟩ := List.length_eq_one_iff.mp hlength
    have hsymbol : String.ofList [a] = x := by rw [← ha, String.ofList_toList]
    have hbracket := (hc.plain x hx a (by simp [ha])).2.2.2
    rw [ha]
    suffices hsingle : Operand c f ([a] ++ Text.behind cs) (some (String.ofList [a])) none
        (Text.trimStart (Text.behind cs)) by
      rwa [hsymbol, hrest] at hsingle
    refine .single ?_ ?_ ?_
    · rintro ⟨hlong, hpair⟩
      -- The second character is a blank, which no comparison holds.
      cases cs with
      | nil => simp at hlong
      | cons b cs =>
          have hmem := List.contains_iff_mem.mp hpair
          have hblank := (hc.plain _ hmem ' ' (by simp)).1
          exact absurd hblank (by decide)
    · rintro - b ⟨rest, hb⟩
      cases b with
      | opening =>
          obtain ⟨rfl, -⟩ := List.cons.inj hb
          contradiction
      | closing =>
          obtain ⟨rfl, -⟩ := List.cons.inj hb
          contradiction
    · exact ⟨by simp, by simpa [hsymbol] using hcomparison⟩
  · obtain ⟨a, d, ha⟩ := List.length_eq_two.mp hlength
    have hsymbol : String.ofList [a, d] = x := by rw [← ha, String.ofList_toList]
    rw [ha]
    have hpair : Operand c f ([a, d] ++ Text.behind cs) (some (String.ofList [a, d])) none
        (Text.trimStart (Text.behind cs)) := .pair ⟨by simp, by simpa [hsymbol] using hcomparison⟩
    rwa [hsymbol, hrest] at hpair

/-- An operator is read off what it stands in front of. -/
theorem splits_headed (ho : o ≠ .none) (hreads : c.readsOperators f = true)
    (hcs : Text.trim cs = cs) : Splits c f (headed (some o.name) cs) (some o) cs := by
  have hrest := Text.trimStart_behind hcs
  have hends : ∀ (word : List Char) (a : Char), (word ++ Text.behind cs)[word.length]? = some a →
      Text.isAlphanumeric a = false := by
    intro word a ha
    rw [List.getElem?_append_right (Nat.le_refl _), Nat.sub_self] at ha
    cases cs with
    | nil => contradiction
    | cons b cs =>
        obtain rfl := Option.some.inj ha
        decide
  cases o with
  | none => contradiction
  | and =>
      have hword : Spells c (headed (some Operator.and.name) cs) .and 3 :=
        .andWord ⟨⟨_, rfl⟩, hends "and".toList⟩
      have hsplits := Splits.operator hreads hword
      rwa [show (headed (some Operator.and.name) cs).drop 3 = Text.behind cs from rfl, hrest]
        at hsplits
  | or =>
      have hand : ¬ BeginsWithWord "and".toList (headed (some Operator.or.name) cs) := by
        rintro ⟨⟨rest, hbegins⟩, -⟩
        have hfirst := (List.cons.inj hbegins).1
        contradiction
      have hword : Spells c (headed (some Operator.or.name) cs) .or 2 :=
        .orWord hand ⟨⟨_, rfl⟩, hends "or".toList⟩
      have hsplits := Splits.operator hreads hword
      rwa [show (headed (some Operator.or.name) cs).drop 2 = Text.behind cs from rfl, hrest]
        at hsplits

theorem trim_headed (hc : c.PlainComparisons) (hx : ∀ x, comparison = some x → x ∈ c.comparisons)
    (hs : Text.trim cs = cs) : Text.trim (headed comparison cs) = headed comparison cs := by
  cases comparison with
  | none => exact hs
  | some x =>
      obtain ⟨hx, hne⟩ := trim_comparison hc (hx x rfl)
      cases cs with
      | nil => simpa [headed] using hx
      | cons a cs => simpa [headed] using Text.trim_append_blank hx hne hs

/-- What begins with neither letter nor digit begins with no word. -/
theorem not_beginsWithWord {a b : Char} {word rest : List Char}
    (ha : Text.isAlphanumeric a = false) (hb : Text.isAlphanumeric b = true) :
    ¬ BeginsWithWord (b :: word) (a :: rest) := by
  rintro ⟨⟨tail, htail⟩, -⟩
  obtain ⟨rfl, -⟩ := List.cons.inj htail
  rw [ha] at hb
  contradiction

/-- A comparison is neither word nor the beginning of one. -/
theorem exists_headed_comparison (hc : c.PlainComparisons) (hx : x ∈ c.comparisons)
    (cs : List Char) : ∃ a rest, headed (some x) cs = a :: rest ∧ x.toList.head? = some a ∧
      Text.isBlank a = false ∧ a ≠ '"' ∧ ¬ BeginsWithWord "and".toList (a :: rest) ∧
        ¬ BeginsWithWord "or".toList (a :: rest) := by
  obtain ⟨a, rest, hcons⟩ := List.exists_cons_of_ne_nil (trim_comparison hc hx).2
  obtain ⟨hblank, hletter, hquote, -⟩ := hc.plain x hx a (by simp [hcons])
  refine ⟨a, rest ++ Text.behind cs, ?_, by rw [hcons]; rfl, hblank, hquote,
    not_beginsWithWord hletter (by decide), not_beginsWithWord hletter (by decide)⟩
  unfold headed
  dsimp only
  rw [hcons, List.cons_append]

theorem beginsWithSymbol_headed_iff (hc : c.PlainComparisons) (hx : x ∈ c.comparisons)
    (symbol : String) (cs : List Char) :
    BeginsWithSymbol symbol (headed (some x) cs) ↔ BeginsWithSymbol symbol x.toList := by
  obtain ⟨a, rest, hfirst, hhead, -⟩ := exists_headed_comparison hc hx cs
  unfold BeginsWithSymbol
  rw [hfirst, hhead, List.head?_cons]

/-- **No operator is read off a comparison, unless it begins with the symbol of one.** -/
theorem splits_comparison (hc : c.PlainComparisons) (hx : x ∈ c.comparisons)
    (hplain : ¬ c.ReadsAsOperator x) (cs : List Char) :
    Splits c f (headed (some x) cs) none (headed (some x) cs) := by
  obtain ⟨a, rest, hfirst, -, -, -, hand, hor⟩ := exists_headed_comparison hc hx cs
  rw [← hfirst] at hand hor
  have hsymbol := beginsWithSymbol_headed_iff hc hx
  refine .plain fun _ o count hspells => ?_
  cases hspells with
  | andWord h => exact hand h
  | orWord _ h => exact hor h
  | andSymbol _ _ h => exact hplain (Or.inl ((hsymbol _ _).mp h))
  | orSymbol _ _ _ h => exact hplain (Or.inr ((hsymbol _ _).mp h))

theorem exists_spells_of_readsAsOperator (hc : c.PlainComparisons) (hx : x ∈ c.comparisons)
    (h : c.ReadsAsOperator x) (cs : List Char) : ∃ o, Spells c (headed (some x) cs) o 1 := by
  obtain ⟨a, rest, hfirst, -, -, -, hand, hor⟩ := exists_headed_comparison hc hx cs
  rw [← hfirst] at hand hor
  have hsymbol := beginsWithSymbol_headed_iff hc hx
  by_cases hsame : BeginsWithSymbol c.andSymbol (headed (some x) cs)
  · exact ⟨.and, .andSymbol hand hor hsame⟩
  · refine ⟨.or, .orSymbol hand hor hsame ((hsymbol _ _).mpr ?_)⟩
    exact h.resolve_left fun hbegins => hsame ((hsymbol _ _).mpr hbegins)

/-! ### What can be written -/

/-- Parts that can be written as a line. -/
structure Writable (c : Config) (f : Option QueryFunction) (operator : Option Operator)
    (comparison : Option String) (search : String) : Prop where
  word : operator ≠ some .none
  configured : ∀ x, comparison = some x → x ∈ c.comparisons
  trimmed : Text.trim search.toList = search.toList
  /-- Without a comparison none is read, and no bracket either. -/
  plain : comparison = none → Operand c f search.toList none none search.toList
  /-- On its own the search text is read as what it is. -/
  bare : operator = none → comparison = none →
    Splits c f search.toList none search.toList ∧ ¬ freeTextMark.toList <+: search.toList

/-- Without an operator, the comparison begins with the symbol of one. -/
def Misleads (c : Config) (operator : Option Operator) (comparison : Option String) : Prop :=
  operator = none ∧ ∃ x, comparison = some x ∧ c.ReadsAsOperator x

theorem or_word {operator' : Option Operator} (hnew : operator' ≠ some .none)
    (hold : operator ≠ some .none) : operator'.or operator ≠ some .none := by
  rw [ne_eq, Option.or_eq_some_iff]
  rintro (h | ⟨-, h⟩)
  · exact hnew h
  · exact hold h

/-- Another operator and another comparison can be put in their places. -/
theorem Writable.or (h : Writable c f operator comparison search) {operator' : Option Operator}
    {comparison' : Option String} (ho : operator' ≠ some .none)
    (hx : ∀ x, comparison' = some x → x ∈ c.comparisons) :
    Writable c f (operator'.or operator) (comparison'.or comparison) search where
  word := or_word ho h.word
  configured x hsome := by
    rcases Option.or_eq_some_iff.mp hsome with hnew | ⟨-, hold⟩
    · exact hx x hnew
    · exact h.configured x hold
  trimmed := h.trimmed
  plain hnone := h.plain (Option.or_eq_none_iff.mp hnone).2
  bare hoperator hnone :=
    h.bare (Option.or_eq_none_iff.mp hoperator).2 (Option.or_eq_none_iff.mp hnone).2

/-- Where a comparison stands in the line, any search text can follow it. -/
theorem writable_of_comparison (ho : operator ≠ some .none) (hx : x ∈ c.comparisons)
    (hs : Text.trim search.toList = search.toList) : Writable c f operator (some x) search where
  word := ho
  configured x' hx' := Option.some.inj hx' ▸ hx
  trimmed := hs
  plain hnone := by contradiction
  bare _ hnone := by contradiction

/-- What a line begins with is no quote. -/
theorem not_mark_line (hc : c.PlainComparisons) (h : Writable c f operator comparison search) :
    ¬ freeTextMark.toList <+: Text.trimStart (line operator comparison search).toList := by
  have hstart : ∀ (a : Char) (rest : List Char), Text.isBlank a = false → a ≠ '"' →
      ¬ freeTextMark.toList <+: Text.trimStart (a :: rest) := by
    rintro a rest hblank hquote ⟨tail, htail⟩
    rw [Text.trimStart_cons hblank] at htail
    exact hquote (List.cons.inj htail).1.symm
  unfold line
  cases operator with
  | some o =>
      cases o with
      | none => exact absurd rfl h.word
      | and =>
          rw [String.append_assoc, String.toList_append]
          exact hstart 'a' _ (by decide) (by decide)
      | or =>
          rw [String.append_assoc, String.toList_append]
          exact hstart 'o' _ (by decide) (by decide)
  | none =>
      cases comparison with
      | some x =>
          have hx := h.configured x rfl
          obtain ⟨a, rest, hcons⟩ := List.exists_cons_of_ne_nil (trim_comparison hc hx).2
          have hplain := hc.plain x hx a (by simp [hcons])
          simpa [hcons] using hstart a _ hplain.1 hplain.2.2.1
      | none =>
          have hbare := (h.bare rfl rfl).2
          rw [← Text.trimStart_of_trim h.trimmed] at hbare
          simpa using hbare

/-- The parts of a line that does not mislead are derived by the rules. -/
theorem Writable.derives (hc : c.PlainComparisons) (hreads : c.readsOperators f = true)
    (h : Writable c f operator comparison search) (hplain : ¬ Misleads c operator comparison) :
    Derives c f (line operator comparison search)
      { operator, comparison, remainder := search } := by
  have hoperand : Operand c f (headed comparison search.toList) comparison none search.toList := by
    cases comparison with
    | none => exact h.plain rfl
    | some x => exact operand_headed hc (h.configured x rfl) h.trimmed
  have hsplit : Splits c f (Text.trim (line operator comparison search).toList) operator
      (headed comparison search.toList) := by
    rw [trim_line hc h.word h.configured h.trimmed]
    cases operator with
    | some o =>
        exact splits_headed (fun hnone => h.word (congrArg some hnone)) hreads
          (trim_headed hc h.configured h.trimmed)
    | none =>
        cases comparison with
        | none => exact (h.bare rfl rfl).1
        | some x =>
            exact splits_comparison hc (h.configured x rfl)
              (fun hreads => hplain ⟨rfl, x, rfl, hreads⟩) _
  have hderives := Derives.parts hsplit hoperand
  rwa [String.ofList_toList] at hderives

theorem of_headed_name_eq_nil (ho : operator ≠ some .none)
    (h : headed (operator.map Operator.name) cs = []) : operator = none ∧ cs = [] := by
  cases operator with
  | none => exact ⟨rfl, h⟩
  | some o =>
      have hname := (trim_name (o := o) fun hnone => ho (congrArg some hnone)).2
      exact absurd (List.append_eq_nil_iff.mp h).1 hname

theorem of_headed_comparison_eq_nil (hc : c.PlainComparisons)
    (hx : ∀ x, comparison = some x → x ∈ c.comparisons) (h : headed comparison cs = []) :
    comparison = none ∧ cs = [] := by
  cases comparison with
  | none => exact ⟨rfl, h⟩
  | some x => exact absurd (List.append_eq_nil_iff.mp h).1 (trim_comparison hc (hx x rfl)).2

/-- **A line is read as its parts, exactly if its comparison does not mislead.** -/
theorem Writable.reads_iff (hc : c.PlainComparisons) (hreads : c.readsOperators f = true)
    (h : Writable c f operator comparison search) :
    ofText c f (line operator comparison search) =
        { operator, comparison, remainder := search } ↔ ¬ Misleads c operator comparison := by
  have htrim := trim_line hc h.word h.configured h.trimmed
  have hmark := not_mark_line hc h
  constructor
  · rintro hread ⟨rfl, x, rfl, hsymbol⟩
    have hx := h.configured x rfl
    obtain ⟨o, hspells⟩ := exists_spells_of_readsAsOperator hc hx hsymbol search.toList
    obtain ⟨comparison, bracket, remainder, hoperand⟩ :=
      exists_operand c f (Text.trimStart ((headed (some x) search.toList).drop 1))
    have hsplit : Splits c f (Text.trim (line none (some x) search).toList) (some o)
        (Text.trimStart ((headed (some x) search.toList).drop 1)) := by
      rw [htrim]
      exact .operator hreads hspells
    have hblank : Text.trim (line none (some x) search).toList ≠ [] := by
      obtain ⟨a, rest, hfirst, -⟩ := exists_headed_comparison hc hx search.toList
      rw [htrim]
      exact hfirst ▸ List.cons_ne_nil a rest
    rw [ofText_of_derives hblank hmark (.parts hsplit hoperand)] at hread
    exact absurd (congrArg Tokens.operator hread) (by simp)
  · intro hplain
    by_cases hblank : Text.trim (line operator comparison search).toList = []
    · rw [ofText_of_blank hblank]
      rw [htrim] at hblank
      obtain ⟨rfl, hrest⟩ := of_headed_name_eq_nil h.word hblank
      obtain ⟨rfl, hsearch⟩ := of_headed_comparison_eq_nil hc h.configured hrest
      rw [String.toList_eq_nil_iff.mp hsearch]
    · exact ofText_of_derives hblank hmark (h.derives hc hreads hplain)

/-! ### What has been read -/

theorem not_spells_nil {count : Nat} : ¬ Spells c [] o count := by
  intro h
  cases h with
  | andWord h => exact absurd h.1 (by decide)
  | orWord _ h => exact absurd h.1 (by decide)
  | andSymbol _ _ h | orSymbol _ _ _ h => exact not_beginsWithSymbol_nil h

theorem exists_spells_of_symbol
    (h : BeginsWithSymbol c.andSymbol cs ∨ BeginsWithSymbol c.orSymbol cs) :
    ∃ o count, Spells c cs o count := by
  by_cases hand : BeginsWithWord "and".toList cs
  · exact ⟨_, _, .andWord hand⟩
  by_cases hor : BeginsWithWord "or".toList cs
  · exact ⟨_, _, .orWord hand hor⟩
  by_cases hsymbol : BeginsWithSymbol c.andSymbol cs
  · exact ⟨_, _, .andSymbol hand hor hsymbol⟩
  · exact ⟨_, _, .orSymbol hand hor hsymbol (h.resolve_left hsymbol)⟩

/-- A comparison that is read begins as its operand does. -/
theorem readsAsOperator_of_comparison {bracket : Option Bracket} {remainder : List Char}
    (h : Operand c f cs comparison bracket remainder) (hx : comparison = some x)
    (hsymbol : c.ReadsAsOperator x) :
    BeginsWithSymbol c.andSymbol cs ∨ BeginsWithSymbol c.orSymbol cs := by
  have hbegins : ∀ (count : Nat) (symbol : String), count ≠ 0 →
      BeginsWithSymbol symbol (String.ofList (cs.take count)).toList →
        BeginsWithSymbol symbol cs := by
    rintro count symbol hcount ⟨a, ha, hsame⟩
    rw [String.toList_ofList, List.head?_take, if_neg hcount] at ha
    exact ⟨a, ha, hsame⟩
  cases h with
  | pair _ =>
      obtain rfl := Option.some.inj hx
      exact hsymbol.imp (hbegins 2 _ (by decide)) (hbegins 2 _ (by decide))
  | single _ _ _ =>
      obtain rfl := Option.some.inj hx
      exact hsymbol.imp (hbegins 1 _ (by decide)) (hbegins 1 _ (by decide))
  | bracket _ _ _ | plain _ _ _ => contradiction

theorem trim_of_splits {operand : List Char} (h : Splits c f cs operator operand)
    (hcs : Text.trim cs = cs) : Text.trim operand = operand := by
  cases h with
  | operator _ _ => exact Text.trim_trimStart_drop hcs _
  | plain _ => exact hcs

theorem trim_of_operand {bracket : Option Bracket} {remainder : List Char}
    (h : Operand c f cs comparison bracket remainder) (hcs : Text.trim cs = cs) :
    Text.trim remainder = remainder := by
  cases h with
  | pair _ => exact Text.trim_trimStart_drop hcs _
  | bracket _ _ _ => rfl
  | single _ _ _ => exact Text.trim_trimStart_drop hcs _
  | plain _ _ _ => exact hcs

/-- **What has been read can be written again**, and does not mislead. -/
theorem Derives.writable (h : Derives c f text t) (hbracket : t.bracket = none)
    (hfree : ¬ freeTextMark.toList <+: Text.trimStart text.toList) :
    Writable c f t.operator t.comparison t.remainder ∧
      (c.readsOperators f = true → ¬ Misleads c t.operator t.comparison) := by
  obtain ⟨hsplit, hoperand⟩ := h
  rename_i operator operand remainder comparison bracket
  obtain rfl : bracket = none := hbracket
  have htrimmed := trim_of_operand hoperand (trim_of_splits hsplit (Text.trim_trim _))
  have hsearch : (String.ofList remainder).toList = remainder := String.toList_ofList
  refine ⟨⟨?_, ?_, by rw [hsearch]; exact htrimmed, ?_, ?_⟩, ?_⟩
  · show operator ≠ some .none
    cases hsplit with
    | operator _ hspells => cases hspells <;> simp
    | plain _ => simp
  · intro x hx
    cases hoperand with
    | pair h => exact Option.some.inj hx ▸ List.contains_iff_mem.mp h.2
    | single _ _ h => exact Option.some.inj hx ▸ List.contains_iff_mem.mp h.2
    | plain _ _ _ => contradiction
  · intro hnone
    rw [hsearch]
    cases hoperand with
    | plain hpair hbrackets hsingle => exact .plain hpair hbrackets hsingle
    | pair _ | single _ _ _ => contradiction
  · intro hoperator hnone
    rw [hsearch]
    cases hoperand with
    | pair _ | single _ _ _ => contradiction
    | plain _ _ _ =>
        cases hsplit with
        | operator _ _ => contradiction
        | plain hspells =>
            exact ⟨.plain hspells, fun hmark => hfree (hmark.trans (Text.trimEnd_prefix _))⟩
  · rintro hreads ⟨hoperator, x, hx, hsymbol⟩
    cases hsplit with
    | operator _ _ => contradiction
    | plain hspells =>
        obtain ⟨o, count, hspelled⟩ := exists_spells_of_symbol
          (readsAsOperator_of_comparison hoperand hx hsymbol)
        exact hspells hreads o count hspelled

/-- **What has been read off any text but free text and a bracket can be written again.** -/
theorem writable_ofText (hbracket : (ofText c f text).bracket = none)
    (hfree : (ofText c f text).freeText = false) :
    Writable c f (ofText c f text).operator (ofText c f text).comparison
        (ofText c f text).remainder ∧
      (c.readsOperators f = true →
        ¬ Misleads c (ofText c f text).operator (ofText c f text).comparison) := by
  by_cases hblank : Text.trim text.toList = []
  · rw [ofText_of_blank hblank]
    refine ⟨⟨by simp, by simp, rfl, fun _ => ?_, fun _ _ => ⟨?_, by decide⟩⟩, ?_⟩
    · exact .plain (by rintro ⟨h, -⟩; contradiction) (by rintro - b ⟨rest, h⟩; cases b <;> cases h)
        (by rintro ⟨h, -⟩; contradiction)
    · exact .plain fun _ o count => not_spells_nil
    · rintro - ⟨-, x, hx, -⟩
      contradiction
  · have hmark : ¬ freeTextMark.toList <+: Text.trimStart text.toList := by
      intro hmark
      rw [freeText_of_mark_after_blanks hblank hmark] at hfree
      contradiction
    exact (derives_ofText hblank hmark).writable hbracket hmark

end Tokens

end QueryBar
