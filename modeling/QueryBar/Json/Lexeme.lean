/-
JSON text as a sequence of lexemes.

A JSON text is read in three steps: characters to lexemes, lexemes to a draft, draft to
a value.  This is the first.  `Lexeme.scan` cuts a text into brackets, separators,
words, numerals and quoted texts.  Where it meets something that no JSON text can hold
it gives the lexeme `stray` and stops, so the fault stays at the place where it is and a
reader meets it only if it gets that far.

Two kinds of lexeme can be sound JSON and still not stand for a value.  A numeral may be
too large for a number, and a quoted text may name half of a surrogate pair.  Both are
kept as they are; who skips over them need not care.
-/
import QueryBar.Json.Numeral

namespace QueryBar.Json

/-! ### Quoted texts

A quoted text is first read into code points, among which escapes may have put halves
of surrogate pairs.  A high half followed by a low half is one character; any other half
has no meaning.
-/

def hexValue? (c : Char) : Option Nat :=
  if '0' ≤ c ∧ c ≤ '9' then some (c.toNat - '0'.toNat)
  else if 'a' ≤ c ∧ c ≤ 'f' then some (c.toNat - 'a'.toNat + 10)
  else if 'A' ≤ c ∧ c ≤ 'F' then some (c.toNat - 'A'.toNat + 10)
  else none

def hexValue4? (a b c d : Char) : Option Nat :=
  match hexValue? a, hexValue? b, hexValue? c, hexValue? d with
  | some a, some b, some c, some d => some (((a * 16 + b) * 16 + c) * 16 + d)
  | _, _, _, _ => none

/-- What the letter of a short escape stands for. -/
def shortEscape? (c : Char) : Option Nat :=
  if c = '"' ∨ c = '\\' ∨ c = '/' then some c.toNat
  else if c = 'n' then some 10
  else if c = 'r' then some 13
  else if c = 't' then some 9
  else if c = 'b' then some 8
  else if c = 'f' then some 12
  else none

/-- The code points up to the closing quote, and what follows it. -/
def scanText (points : List Nat) : List Char → Option (List Nat × List Char)
  | [] => none
  | '"' :: cs => some (points.reverse, cs)
  | '\\' :: 'u' :: a :: b :: c :: d :: cs =>
    match hexValue4? a b c d with
    | some n => scanText (n :: points) cs
    | none => none
  | '\\' :: c :: cs =>
    match shortEscape? c with
    | some n => scanText (n :: points) cs
    | none => none
  | c :: cs => if c.toNat < 32 ∨ c = '\\' then none else scanText (c.toNat :: points) cs

theorem length_of_scanText {points result : List Nat} {cs rest : List Char}
    (h : scanText points cs = some (result, rest)) : rest.length < cs.length := by
  fun_induction scanText points cs <;> simp_all <;> omega

/-- The code point is the first half of a surrogate pair. -/
def isHighHalf (n : Nat) : Bool := 0xD800 ≤ n && n < 0xDC00

/-- The code point is the second half of a surrogate pair. -/
def isLowHalf (n : Nat) : Bool := 0xDC00 ≤ n && n < 0xE000

/-- The characters that code points stand for, unless half of a pair is left alone. -/
def joinHalves? : List Nat → Option (List Char)
  | [] => some []
  | n :: ns =>
    if isHighHalf n then
      match ns with
      | m :: ms =>
        if isLowHalf m then
          (joinHalves? ms).map (Char.ofNat (0x10000 + (n - 0xD800) * 0x400 + (m - 0xDC00)) :: ·)
        else none
      | [] => none
    else if isLowHalf n then none
    else (joinHalves? ns).map (Char.ofNat n :: ·)

/-! ### Lexemes -/

/-- One piece of a JSON text. -/
inductive Lexeme
  | openArray
  | closeArray
  | openObject
  | closeObject
  | comma
  | colon
  | null
  | bool (b : Bool)
  | numeral (n : Numeral)
  /-- A quoted text; nothing if it names half of a surrogate pair. -/
  | text (t : Option String)
  /-- Here the text is no JSON; no lexeme follows. -/
  | stray

namespace Lexeme

/-- The four characters that may stand between lexemes. -/
def isSpace (c : Char) : Bool := c = ' ' ∨ c = '\n' ∨ c = '\t' ∨ c = '\r'

/-- The mark of one character, if it is one. -/
def ofMark? (c : Char) : Option Lexeme :=
  if c = '[' then some .openArray
  else if c = ']' then some .closeArray
  else if c = '\x7b' then some .openObject
  else if c = '\x7d' then some .closeObject
  else if c = ',' then some .comma
  else if c = ':' then some .colon
  else none

def scan (cs : List Char) : List Lexeme :=
  match cs with
  | [] => []
  | 'n' :: 'u' :: 'l' :: 'l' :: cs => .null :: scan cs
  | 't' :: 'r' :: 'u' :: 'e' :: cs => .bool true :: scan cs
  | 'f' :: 'a' :: 'l' :: 's' :: 'e' :: cs => .bool false :: scan cs
  | '"' :: cs =>
    match h : scanText [] cs with
    | some (points, rest) =>
      have := length_of_scanText h
      .text ((joinHalves? points).map String.ofList) :: scan rest
    | none => [.stray]
  | '-' :: cs =>
    match h : Numeral.scan true cs with
    | some (n, rest) =>
      have := Numeral.length_of_scan h
      .numeral n :: scan rest
    | none => [.stray]
  | c :: cs =>
    if isSpace c then scan cs
    else match ofMark? c with
      | some mark => mark :: scan cs
      | none =>
        match h : Numeral.scan false (c :: cs) with
        | some (n, rest) =>
          have := Numeral.length_of_scan h
          .numeral n :: scan rest
        | none => [.stray]
termination_by cs.length
decreasing_by
  all_goals
    simp only [List.length_cons] at *
    omega

end Lexeme

end QueryBar.Json
