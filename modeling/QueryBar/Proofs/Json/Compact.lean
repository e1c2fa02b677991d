/-
The compact text of a value, read again.

What is written for a value is one of the texts that the grammar has for the value's draft
(`spells_chars`), so that it is read as that draft (`ofLexemes_compact`).  A number that is not
finite is written as `null`, and that is what is read.
-/
import QueryBar.Proofs.Json.Grammar
import QueryBar.Proofs.Json.Written

namespace QueryBar.Json

/-- The numeral that is written for an integer. -/
def Numeral.ofInt (i : Int) : Numeral := ⟨i < 0, Nat.toDigits 10 i.natAbs, [], none⟩

/-- The draft of a number: a numeral, or `null` for want of a spelling. -/
def numberDraft : Number → Draft
  | .finite negative m => .numeral (.ofMagnitude negative m)
  | _ => .null

mutual

/-- The draft that stands for a value. -/
def draft : Json → Draft
  | .null => .null
  | .bool b => .bool b
  | .integer i => .numeral (.ofInt i)
  | .number x => numberDraft x
  | .string s => .text (some s)
  | .array items => .array (itemDrafts items) .closed
  | .object members => .object (memberDrafts members) .closed

def itemDrafts : List Json → List Draft
  | [] => []
  | j :: js => draft j :: itemDrafts js

def memberDrafts : List (String × Json) → List (Option String × Draft)
  | [] => []
  | (name, j) :: ms => (some name, draft j) :: memberDrafts ms

end

/-! ### Numbers -/

theorem Numeral.sound_ofInt (i : Int) : (Numeral.ofInt i).Sound := by
  refine ⟨Numeral.isDigit_of_mem_toDigits, Nat.toDigits_ne_nil, fun h => ?_, by simp [ofInt]⟩
  by_cases hnought : i.natAbs = 0
  · unfold ofInt
    rw [hnought]
    rfl
  · exact absurd rfl (head_toDigits (Nat.pos_of_ne_zero hnought) '0' h)

theorem Numeral.chars_ofInt (i : Int) : (Numeral.ofInt i).chars = integerText i := by
  unfold Numeral.chars Numeral.unsigned ofInt integerText
  simp [fractionChars, exponentChars]

theorem Numeral.negative_ofMagnitude (negative : Bool) (m : Magnitude) :
    (Numeral.ofMagnitude negative m).negative = negative := by
  unfold ofMagnitude positional scientific
  split
  · rfl
  split
  · split
    · rfl
    · split <;> rfl
  · rfl

theorem Numeral.chars_ofMagnitude (negative : Bool) (m : Magnitude) :
    (Numeral.ofMagnitude negative m).chars = numberText (.finite negative m) := by
  unfold Numeral.chars numberText NumberLayout.finiteText
  dsimp only
  rw [Numeral.negative_ofMagnitude, Numeral.unsigned_ofMagnitude, String.toList_ofList]

theorem spells_integerText (i : Int) : Spells (.value (.numeral (.ofInt i))) (integerText i) := by
  rw [← Numeral.chars_ofInt]
  exact .numeral (Numeral.spells_chars (Numeral.sound_ofInt i))

theorem spells_numberText (x : Number) : Spells (.value (numberDraft x)) (numberText x) := by
  cases x with
  | nan => exact .nullWord
  | infinite negative => exact .nullWord
  | finite negative m =>
      rw [← Numeral.chars_ofMagnitude]
      exact .numeral (Numeral.spells_chars (Numeral.sound_ofMagnitude negative m))

/-! ### Values -/

/-- A member is a name in quotes, a colon and the text of its value. -/
theorem spells_member {d : Draft} {cs : List Char} (name : String) (h : Spells (.value d) cs) :
    Spells (.member (some name) d) (quoted name ++ ':' :: cs) :=
  .member (spellsText_quoted name) (List.forall_mem_nil _) h

mutual

/-- **What is written for a value is a text of its draft.** -/
theorem spells_chars : (j : Json) → Spells (.value j.draft) j.chars
  | .null => by
      rw [draft, chars]
      exact .nullWord
  | .bool false => by
      rw [draft, chars]
      exact .falseWord
  | .bool true => by
      rw [draft, chars]
      exact .trueWord
  | .integer i => by
      rw [draft, chars]
      exact spells_integerText i
  | .number x => by
      rw [draft, chars]
      exact spells_numberText x
  | .string s => by
      rw [draft, chars]
      exact .text (spellsText_quoted s)
  | .array [] => by
      rw [draft, chars]
      exact .emptyArray (List.forall_mem_nil _)
  | .array (j :: js) => by
      rw [draft, chars]
      exact .array (spells_items (j :: js) (List.cons_ne_nil _ _))
  | .object [] => by
      rw [draft, chars]
      exact .emptyObject (List.forall_mem_nil _)
  | .object (member :: ms) => by
      rw [draft, chars]
      exact .object (spells_members (member :: ms) (List.cons_ne_nil _ _))

theorem spells_items : (items : List Json) → items ≠ [] →
    Spells (.items (itemDrafts items)) (itemsChars items)
  | [], hitems => absurd rfl hitems
  | [j], _ => .lastItem (spells_chars j)
  | j :: k :: js, _ => .moreItems (spells_chars j) (spells_items (k :: js) (List.cons_ne_nil _ _))

theorem spells_members : (members : List (String × Json)) → members ≠ [] →
    Spells (.members (memberDrafts members)) (membersChars members)
  | [], hmembers => absurd rfl hmembers
  | [(name, j)], _ => .lastMember (spells_member name (spells_chars j))
  | (name, j) :: member :: ms, _ =>
      .moreMembers (spells_member name (spells_chars j))
        (spells_members (member :: ms) (List.cons_ne_nil _ _))

end

/-- **The text of a value is read as the draft that stands for it**, and nothing follows. -/
theorem ofLexemes_compact (j : Json) :
    Draft.ofLexemes (Lexeme.scan j.compact.toList) = (j.draft, []) := by
  rw [compact, String.toList_ofList]
  exact ofLexemes_of_spells (spells_chars j)

/-! ### Objects by their members -/

/-- What is written for the members of an object. -/
def memberTexts : Json → List (List Char)
  | .object members => members.map fun member => quoted member.1 ++ ':' :: member.2.chars
  | _ => []

/-- The text of an object with the given texts for its members. -/
def objectText (members : List (List Char)) : String :=
  String.ofList ('\x7b' :: ([','].intercalate members ++ ['\x7d']))

theorem membersChars_eq_intercalate : (members : List (String × Json)) →
    membersChars members = [','].intercalate (object members).memberTexts
  | [] => rfl
  | [(name, j)] => by
      rw [membersChars, memberTexts]
      exact List.intercalate_singleton.symm
  | (name, j) :: member :: ms => by
      show quoted name ++ ':' :: j.chars ++ ',' :: membersChars (member :: ms) = _
      rw [membersChars_eq_intercalate (member :: ms), memberTexts, memberTexts, List.map_cons,
        List.map_cons, List.map_cons, List.intercalate_cons_cons]
      simp

/-- An object is written member by member. -/
theorem compact_object (members : List (String × Json)) :
    (object members).compact = objectText (object members).memberTexts := by
  rw [compact, chars, membersChars_eq_intercalate]
  rfl

/-- What is written for a member is a text of it. -/
theorem spells_memberTexts (members : List (String × Json)) :
    List.Forall₂ (fun cs member => Spells (.member member.1 member.2) cs)
      (object members).memberTexts (memberDrafts members) := by
  induction members with
  | nil => exact .nil
  | cons member ms ih => exact .cons (spells_member member.1 (spells_chars member.2)) ih

/-- **An object is read member by member**, however these are spelled. -/
theorem ofLexemes_objectText {texts : List (List Char)} {members : List (Option String × Draft)}
    (h : List.Forall₂ (fun cs member => Spells (.member member.1 member.2) cs) texts members) :
    Draft.ofLexemes (Lexeme.scan (objectText texts).toList) = (.object members .closed, []) := by
  have hmembers : texts ≠ [] → Spells (.members members) ([','].intercalate texts) := by
    intro hne
    induction h with
    | nil => contradiction
    | @cons cs member texts members hmember hrest ih =>
        cases hrest with
        | nil =>
            rw [List.intercalate_singleton]
            exact .lastMember hmember
        | cons hnext hmore =>
            rw [List.intercalate_cons_cons]
            simpa using Spells.moreMembers hmember (ih (List.cons_ne_nil _ _))
  rw [objectText, String.toList_ofList]
  cases h with
  | nil => exact ofLexemes_of_spells (.emptyObject (List.forall_mem_nil _))
  | cons _ _ => exact ofLexemes_of_spells (.object (hmembers (List.cons_ne_nil _ _)))

end QueryBar.Json
