/-
The grammar of JSON texts.

The rules say which texts are JSON and which draft each of them stands for.  Blanks may stand
around every value and every name.  A text that the rules give is cut into lexemes that a reader
puts together to that draft (`Spells.reads`), whatever it stands in, so that every text of a value
is read, and as nothing else (`ofLexemes_of_spells`).

The rules never give a torn draft, and a reader who passes over a value finds no fault in it
(`Spells.isWhole`).
-/
import QueryBar.Json.Draft
import QueryBar.Proofs.Json.Numerals
import QueryBar.Proofs.Json.Quoted

namespace QueryBar.Json

/-! ### The rules -/

/-- What a piece of a JSON text is the text of. -/
inductive Form
  | value (d : Draft)
  /-- What stands between the brackets of an array that is not empty. -/
  | items (ds : List Draft)
  | member (name : Option String) (d : Draft)
  /-- What stands between the brackets of an object that is not empty. -/
  | members (ms : List (Option String × Draft))

/-- A text of a form. -/
inductive Spells : Form → List Char → Prop
  | nullWord : Spells (.value .null) "null".toList
  | falseWord : Spells (.value (.bool false)) "false".toList
  | trueWord : Spells (.value (.bool true)) "true".toList
  | numeral {n : Numeral} {cs : List Char} (h : n.Spells cs) : Spells (.value (.numeral n)) cs
  | text {t : Option String} {cs : List Char} (h : SpellsText t cs) : Spells (.value (.text t)) cs
  | emptyArray {gap : List Char} (hgap : ∀ c ∈ gap, Lexeme.isSpace c = true) :
      Spells (.value (.array [] .closed)) ('[' :: (gap ++ [']']))
  | array {ds : List Draft} {cs : List Char} (h : Spells (.items ds) cs) :
      Spells (.value (.array ds .closed)) ('[' :: (cs ++ [']']))
  | emptyObject {gap : List Char} (hgap : ∀ c ∈ gap, Lexeme.isSpace c = true) :
      Spells (.value (.object [] .closed)) ('\x7b' :: (gap ++ ['\x7d']))
  | object {ms : List (Option String × Draft)} {cs : List Char} (h : Spells (.members ms) cs) :
      Spells (.value (.object ms .closed)) ('\x7b' :: (cs ++ ['\x7d']))
  | lastItem {d : Draft} {cs : List Char} (h : Spells (.value d) cs) : Spells (.items [d]) cs
  | moreItems {d : Draft} {ds : List Draft} {cs more : List Char} (h : Spells (.value d) cs)
      (hmore : Spells (.items ds) more) : Spells (.items (d :: ds)) (cs ++ ',' :: more)
  | member {name : Option String} {d : Draft} {quote gap cs : List Char}
      (hname : SpellsText name quote) (hgap : ∀ c ∈ gap, Lexeme.isSpace c = true)
      (h : Spells (.value d) cs) : Spells (.member name d) (quote ++ (gap ++ ':' :: cs))
  | lastMember {name : Option String} {d : Draft} {cs : List Char}
      (h : Spells (.member name d) cs) : Spells (.members [(name, d)]) cs
  | moreMembers {name : Option String} {d : Draft} {ms : List (Option String × Draft)}
      {cs more : List Char} (h : Spells (.member name d) cs) (hmore : Spells (.members ms) more) :
      Spells (.members ((name, d) :: ms)) (cs ++ ',' :: more)
  | blankBefore {form : Form} {c : Char} {cs : List Char} (hc : Lexeme.isSpace c = true)
      (h : Spells form cs) : Spells form (c :: cs)
  | blankAfter {form : Form} {c : Char} {cs : List Char} (hc : Lexeme.isSpace c = true)
      (h : Spells form cs) : Spells form (cs ++ [c])

variable {form : Form} {d : Draft} {cs : List Char} {ls : List Lexeme}

/-! ### Marks and blanks -/

/-- A mark is read on its own. -/
theorem scan_mark {c : Char} {mark : Lexeme} (hmark : Lexeme.ofMark? c = some mark)
    (rest : List Char) : Lexeme.scan (c :: rest) = mark :: Lexeme.scan rest := by
  have hne : ∀ {d : Char}, Lexeme.ofMark? d = none → c ≠ d := by
    rintro d hnone rfl
    rw [hnone] at hmark
    contradiction
  have hspace : Lexeme.isSpace c = false := by
    unfold Lexeme.isSpace
    simp [hne (d := ' ') rfl, hne (d := '\n') rfl, hne (d := '\t') rfl, hne (d := '\r') rfl]
  rw [Lexeme.scan_cons ⟨hne rfl, hne rfl, hne rfl, hne rfl, hne rfl⟩, hspace, hmark,
    if_neg Bool.false_ne_true]
  rfl

theorem eq_of_isSpace {c : Char} (h : Lexeme.isSpace c = true) :
    c = ' ' ∨ c = '\n' ∨ c = '\t' ∨ c = '\r' := of_decide_eq_true h

/-- A blank is passed over. -/
theorem scan_blank {c : Char} (h : Lexeme.isSpace c = true) (rest : List Char) :
    Lexeme.scan (c :: rest) = Lexeme.scan rest := by
  have hfirst : c ≠ 'n' ∧ c ≠ 't' ∧ c ≠ 'f' ∧ c ≠ '"' ∧ c ≠ '-' := by
    rcases eq_of_isSpace h with rfl | rfl | rfl | rfl <;> decide
  rw [Lexeme.scan_cons hfirst, if_pos h]

theorem scan_blanks {gap : List Char} (h : ∀ c ∈ gap, Lexeme.isSpace c = true)
    (rest : List Char) : Lexeme.scan (gap ++ rest) = Lexeme.scan rest := by
  induction gap with
  | nil => rfl
  | cons c gap ih =>
      rw [List.cons_append, scan_blank (h c List.mem_cons_self)]
      exact ih fun c hc => h c (List.mem_cons_of_mem _ hc)

theorem endsNumeral_cons {c : Char}
    (h : c.isDigit = false ∧ c ≠ '.' ∧ c ≠ 'e' ∧ c ≠ 'E') (rest : List Char) :
    EndsNumeral (c :: rest) := by
  rintro d hd
  exact Option.some.inj hd ▸ h

/-! ### Reading -/

namespace Form

/-- The lexemes begin as those of a form do: a value does not begin with the end of what it stands
in, and a member begins with a name. -/
def Begins : Form → List Lexeme → Prop
  | .value _, ls => ∃ l more, ls = l :: more ∧ l ≠ .closeArray
  | .items _, ls => ∃ l more, ls = l :: more ∧ l ≠ .closeArray
  | .member _ _, ls => ∃ name more, ls = .text name :: more
  | .members _, ls => ∃ name more, ls = .text name :: more

/-- A reader who is asked for the form makes it of the lexemes, whatever it stands in, and goes
on behind it. -/
def Built : Form → List Lexeme → Prop
  | .value d, ls => ∀ stack more, Draft.readValue stack (ls ++ more) = Draft.afterValue d stack more
  | .items ds, ls => ∀ done stack more,
      Draft.readValue (.array done :: stack) (ls ++ .closeArray :: more) =
        Draft.afterValue (.array (done.reverse ++ ds) .closed) stack more
  | .member name d, ls => ∀ done stack more,
      Draft.readMember done stack (ls ++ more) =
        Draft.afterValue d (.object done name :: stack) more
  | .members ms, ls => ∀ done stack more,
      Draft.readMember done stack (ls ++ .closeObject :: more) =
        Draft.afterValue (.object (done.reverse ++ ms) .closed) stack more

/-- The text is cut into the lexemes, of which a reader makes the form. -/
structure ReadAs (form : Form) (cs : List Char) (ls : List Lexeme) : Prop where
  begins : form.Begins ls
  cut : ∀ rest, EndsNumeral rest → Lexeme.scan (cs ++ rest) = ls ++ Lexeme.scan rest
  built : form.Built ls

/-- A value of one lexeme. -/
theorem readAs_lexeme {l : Lexeme} (hl : l ≠ .closeArray)
    (hcut : ∀ rest, EndsNumeral rest → Lexeme.scan (cs ++ rest) = l :: Lexeme.scan rest)
    (hbuilt : ∀ stack more, Draft.readValue stack (l :: more) = Draft.afterValue d stack more) :
    (value d).ReadAs cs [l] :=
  ⟨⟨l, [], rfl, hl⟩, hcut, hbuilt⟩

end Form

/-- Between brackets there are only blanks. -/
theorem scan_emptyBrackets {left right : Char} {opening closing : Lexeme} {gap : List Char}
    (hleft : Lexeme.ofMark? left = some opening) (hright : Lexeme.ofMark? right = some closing)
    (hgap : ∀ c ∈ gap, Lexeme.isSpace c = true) (rest : List Char) :
    Lexeme.scan (left :: (gap ++ [right]) ++ rest) = [opening, closing] ++ Lexeme.scan rest := by
  rw [List.cons_append, List.append_assoc, List.singleton_append, scan_mark hleft,
    scan_blanks hgap, scan_mark hright]
  rfl

/-- What stands between brackets is cut as it is on its own. -/
theorem scan_brackets {left right : Char} {opening closing : Lexeme}
    (hleft : Lexeme.ofMark? left = some opening) (hright : Lexeme.ofMark? right = some closing)
    (hends : right.isDigit = false ∧ right ≠ '.' ∧ right ≠ 'e' ∧ right ≠ 'E')
    (hcut : ∀ rest, EndsNumeral rest → Lexeme.scan (cs ++ rest) = ls ++ Lexeme.scan rest)
    (rest : List Char) :
    Lexeme.scan (left :: (cs ++ [right]) ++ rest) =
      opening :: (ls ++ [closing]) ++ Lexeme.scan rest := by
  rw [List.cons_append, List.append_assoc, List.singleton_append, scan_mark hleft,
    hcut _ (endsNumeral_cons hends _), scan_mark hright, List.cons_append, List.append_assoc,
    List.singleton_append]

/-- What stands on both sides of a comma is cut as it is on its own. -/
theorem scan_comma {more rest : List Char} {lsMore : List Lexeme}
    (hcut : ∀ rest, EndsNumeral rest → Lexeme.scan (cs ++ rest) = ls ++ Lexeme.scan rest)
    (hmore : Lexeme.scan (more ++ rest) = lsMore ++ Lexeme.scan rest) :
    Lexeme.scan (cs ++ ',' :: more ++ rest) = ls ++ .comma :: lsMore ++ Lexeme.scan rest := by
  rw [List.append_assoc, List.cons_append, hcut _ (endsNumeral_cons (by decide) _), scan_mark rfl,
    hmore, List.append_assoc, List.cons_append]

/-- An array whose bracket is followed by its first item. -/
theorem readValue_openArray {l : Lexeme} (h : l ≠ .closeArray) (stack : List Frame)
    (ls : List Lexeme) :
    Draft.readValue stack (.openArray :: l :: ls) =
      Draft.readValue (.array [] :: stack) (l :: ls) := by
  rw [Draft.readValue.eq_def]
  split <;> simp_all

/-- **A text of a form is cut into lexemes that are put together to the form.** -/
theorem Spells.reads (h : Spells form cs) : ∃ ls, form.ReadAs cs ls := by
  induction h with
  | nullWord =>
      refine ⟨_, Form.readAs_lexeme (l := .null) (by simp) (fun rest _ => ?_) fun _ _ => ?_⟩
      · show Lexeme.scan ('n' :: 'u' :: 'l' :: 'l' :: rest) = _
        rw [Lexeme.scan]
      · rw [Draft.readValue]
  | falseWord =>
      refine ⟨_, Form.readAs_lexeme (l := .bool false) (by simp) (fun rest _ => ?_) fun _ _ => ?_⟩
      · show Lexeme.scan ('f' :: 'a' :: 'l' :: 's' :: 'e' :: rest) = _
        rw [Lexeme.scan]
      · rw [Draft.readValue]
  | trueWord =>
      refine ⟨_, Form.readAs_lexeme (l := .bool true) (by simp) (fun rest _ => ?_) fun _ _ => ?_⟩
      · show Lexeme.scan ('t' :: 'r' :: 'u' :: 'e' :: rest) = _
        rw [Lexeme.scan]
      · rw [Draft.readValue]
  | numeral h =>
      refine ⟨_, Form.readAs_lexeme (by simp) (fun _ => Lexeme.scan_numeral h) fun _ _ => ?_⟩
      rw [Draft.readValue]
  | text h =>
      refine ⟨_, Form.readAs_lexeme (by simp) (fun rest _ => scan_spellsText h rest) fun _ _ => ?_⟩
      rw [Draft.readValue]
  | emptyArray hgap =>
      exact ⟨_, ⟨_, _, rfl, by simp⟩, fun rest _ => scan_emptyBrackets rfl rfl hgap rest,
        Draft.readValue.eq_5⟩
  | array _ ih =>
      obtain ⟨_, ⟨l, ls, rfl, hl⟩, hcut, hbuilt⟩ := ih
      refine ⟨_, ⟨_, _, rfl, by simp⟩, fun rest _ => scan_brackets rfl rfl (by decide) hcut rest,
        fun stack more => ?_⟩
      rw [List.cons_append, List.append_assoc, List.singleton_append, List.cons_append,
        readValue_openArray hl, ← List.cons_append, hbuilt, List.reverse_nil, List.nil_append]
  | emptyObject hgap =>
      exact ⟨_, ⟨_, _, rfl, by simp⟩, fun rest _ => scan_emptyBrackets rfl rfl hgap rest,
        Draft.readValue.eq_7⟩
  | object _ ih =>
      obtain ⟨_, ⟨name, ls, rfl⟩, hcut, hbuilt⟩ := ih
      refine ⟨_, ⟨_, _, rfl, by simp⟩, fun rest _ => scan_brackets rfl rfl (by decide) hcut rest,
        fun stack more => ?_⟩
      rw [List.cons_append, List.append_assoc, List.singleton_append, List.cons_append,
        Draft.readValue, ← List.cons_append, hbuilt, List.reverse_nil, List.nil_append]
      simp
  | lastItem _ ih =>
      obtain ⟨ls, hbegins, hcut, hbuilt⟩ := ih
      refine ⟨ls, hbegins, hcut, fun done stack more => ?_⟩
      rw [hbuilt, Draft.afterValue, List.reverse_cons]
  | moreItems _ _ ih ihmore =>
      obtain ⟨_, ⟨l, ls, rfl, hl⟩, hcut, hbuilt⟩ := ih
      obtain ⟨lsMore, -, hcutMore, hbuiltMore⟩ := ihmore
      refine ⟨l :: ls ++ .comma :: lsMore, ⟨l, _, rfl, hl⟩,
        fun rest hrest => scan_comma hcut (hcutMore rest hrest), fun done stack more => ?_⟩
      rw [List.append_assoc, hbuilt, List.cons_append, Draft.afterValue, hbuiltMore,
        List.reverse_cons, List.append_assoc, List.singleton_append]
  | @member name d quote gap cs hname hgap _ ih =>
      obtain ⟨ls, -, hcut, hbuilt⟩ := ih
      refine ⟨.text name :: .colon :: ls, ⟨_, _, rfl⟩, fun rest hrest => ?_,
        fun done stack more => ?_⟩
      · rw [List.append_assoc, List.append_assoc, List.cons_append, scan_spellsText hname,
          scan_blanks hgap, scan_mark rfl, hcut rest hrest]
        rfl
      · rw [List.cons_append, List.cons_append, Draft.readMember, hbuilt]
  | lastMember _ ih =>
      obtain ⟨ls, hbegins, hcut, hbuilt⟩ := ih
      refine ⟨ls, hbegins, hcut, fun done stack more => ?_⟩
      rw [hbuilt, Draft.afterValue, List.reverse_cons]
  | moreMembers _ _ ih ihmore =>
      obtain ⟨_, ⟨name, ls, rfl⟩, hcut, hbuilt⟩ := ih
      obtain ⟨lsMore, -, hcutMore, hbuiltMore⟩ := ihmore
      refine ⟨.text name :: ls ++ .comma :: lsMore, ⟨name, _, rfl⟩,
        fun rest hrest => scan_comma hcut (hcutMore rest hrest), fun done stack more => ?_⟩
      rw [List.append_assoc, hbuilt, List.cons_append, Draft.afterValue, hbuiltMore,
        List.reverse_cons, List.append_assoc, List.singleton_append]
  | blankBefore hc _ ih =>
      obtain ⟨ls, hbegins, hcut, hbuilt⟩ := ih
      refine ⟨ls, hbegins, fun rest hrest => ?_, hbuilt⟩
      rw [List.cons_append, scan_blank hc, hcut rest hrest]
  | @blankAfter form c cs hc _ ih =>
      obtain ⟨ls, hbegins, hcut, hbuilt⟩ := ih
      refine ⟨ls, hbegins, fun rest _ => ?_, hbuilt⟩
      have hends : c.isDigit = false ∧ c ≠ '.' ∧ c ≠ 'e' ∧ c ≠ 'E' := by
        rcases eq_of_isSpace hc with rfl | rfl | rfl | rfl <;> decide
      rw [List.append_assoc, List.singleton_append, hcut _ (endsNumeral_cons hends rest),
        scan_blank hc]

/-- **A text of a value is read as the draft that stands for it**, and nothing follows. -/
theorem ofLexemes_of_spells (h : Spells (.value d) cs) :
    Draft.ofLexemes (Lexeme.scan cs) = (d, []) := by
  obtain ⟨ls, -, hcut, hbuilt⟩ := h.reads
  have hscan := hcut [] (fun c hc => nomatch hc)
  rw [List.append_nil, Lexeme.scan] at hscan
  rw [hscan]
  exact (hbuilt [] []).trans (by rw [Draft.afterValue])

/-! ### Values without a tear -/

namespace Form

/-- There is no tear in the form. -/
def isWhole : Form → Bool
  | .value d => d.isWhole
  | .items ds => Draft.areWhole ds
  | .member _ d => d.isWhole
  | .members ms => Draft.membersWhole ms

end Form

/-- **What the rules give is never torn.** -/
theorem Spells.isWhole (h : Spells form cs) : form.isWhole = true := by
  induction h with
  | nullWord | falseWord | trueWord | numeral _ | text _ | emptyArray _ | emptyObject _ => rfl
  | array _ ih | object _ ih => exact ih
  | lastItem _ ih | lastMember _ ih => exact (Bool.and_true _).trans ih
  | moreItems _ _ ih ihmore | moreMembers _ _ ih ihmore =>
      exact (Bool.and_eq_true ..).mpr ⟨ih, ihmore⟩
  | member _ _ _ ih | blankBefore _ _ ih | blankAfter _ _ ih => exact ih

end QueryBar.Json
