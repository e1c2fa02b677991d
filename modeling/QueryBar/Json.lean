/-
JSON values and their compact text.

Integers and floating-point numbers are told apart, as they are written differently.
The members of an object stand in the order in which they are to be written; a value
that was read from a text has them sorted by name, see `QueryBar.Json.Draft`.

The compact text has no blanks.  Inside a text only the quote, the backslash and the
characters below U+0020 are escaped, with a letter where JSON has one.
-/
import QueryBar.Number.Layout

namespace QueryBar

/-- A JSON value. -/
inductive Json
  | null
  | bool (b : Bool)
  | integer (i : Int)
  | number (x : Number)
  | string (s : String)
  | array (items : List Json)
  | object (members : List (String × Json))

namespace Json

/-! ### Texts in quotes -/

def hexDigit (n : Nat) : Char := Nat.digitChar (n % 16)

/-- A character as it stands between quotes. -/
def escape (c : Char) : List Char :=
  if c = '"' then ['\\', '"']
  else if c = '\\' then ['\\', '\\']
  else if c = '\n' then ['\\', 'n']
  else if c = '\r' then ['\\', 'r']
  else if c = '\t' then ['\\', 't']
  else if c.toNat = 8 then ['\\', 'b']
  else if c.toNat = 12 then ['\\', 'f']
  else if c.toNat < 32 then ['\\', 'u', '0', '0', hexDigit (c.toNat / 16), hexDigit c.toNat]
  else [c]

def quoted (s : String) : List Char := '"' :: s.toList.flatMap escape ++ ['"']

/-! ### Compact text -/

def integerText (i : Int) : List Char :=
  if i < 0 then '-' :: Nat.toDigits 10 i.natAbs else Nat.toDigits 10 i.natAbs

/-- A number in JSON's layout; what is not finite has no spelling and becomes `null`. -/
def numberText : Number → List Char
  | .finite negative m => (NumberLayout.json.finiteText negative m).toList
  | _ => "null".toList

mutual

def chars : Json → List Char
  | .null => "null".toList
  | .bool b => if b then "true".toList else "false".toList
  | .integer i => integerText i
  | .number x => numberText x
  | .string s => quoted s
  | .array items => '[' :: itemsChars items ++ [']']
  | .object members => '\x7b' :: membersChars members ++ ['\x7d']

def itemsChars : List Json → List Char
  | [] => []
  | [j] => chars j
  | j :: js => chars j ++ ',' :: itemsChars js

def membersChars : List (String × Json) → List Char
  | [] => []
  | [(name, j)] => quoted name ++ ':' :: chars j
  | (name, j) :: ms => quoted name ++ ':' :: chars j ++ ',' :: membersChars ms

end

def compact (j : Json) : String := String.ofList j.chars

/-! ### Building and taking apart -/

def nat (n : Nat) : Json := .integer n

/-- An optional value; absence is `null`. -/
def optional {α : Type} (f : α → Json) : Option α → Json
  | none => .null
  | some a => f a

/-- The member of an object with the given name. -/
def member? (name : String) : Json → Option Json
  | .object members => members.lookup name
  | _ => none

end Json

end QueryBar
