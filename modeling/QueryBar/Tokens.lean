/-
What was typed, taken apart.

The text of an edit box starts with an operator, a comparison, both or neither, and what
is left is searched for.  A word is an operator only if no letter or digit follows it
directly, so `orange` is searched for.  Of two comparisons that both begin the text the
longer one is meant.  A bracket stands for itself: what follows it is ignored.  A quote
at the front makes everything after it free text, blanks included.
-/
import QueryBar.Config
import QueryBar.Text.Alphanumeric
import QueryBar.Text.Blank

namespace QueryBar

/-- The parts of a typed text. -/
structure Tokens where
  operator : Option Operator := none
  comparison : Option String := none
  bracket : Option Bracket := none
  /-- What is searched for, or the free text. -/
  remainder : String := ""
  freeText : Bool := false
  deriving DecidableEq

namespace Tokens

/-- Nothing was typed, or nothing but blanks. -/
def isEmpty (t : Tokens) : Bool :=
  t.operator.isNone && t.comparison.isNone && t.bracket.isNone && t.remainder.isEmpty

/-- What follows a word at the front of a text; a longer word does not count. -/
def afterWord? (word cs : List Char) : Option (List Char) :=
  if word.isPrefixOf cs then
    let rest := cs.drop word.length
    if rest.head?.any Text.isAlphanumeric then none else some (Text.trimStart rest)
  else none

/-- The operator at the front of a text, as a word or as a symbol, and the rest. -/
def readOperator (c : Config) (cs : List Char) : Option Operator × List Char :=
  match afterWord? "and".toList cs with
  | some rest => (some .and, rest)
  | none =>
    match afterWord? "or".toList cs with
    | some rest => (some .or, rest)
    | none =>
      match cs with
      | [] => (none, [])
      | first :: rest =>
        if String.singleton first = c.andSymbol then (some .and, Text.trimStart rest)
        else if String.singleton first = c.orSymbol then (some .or, Text.trimStart rest)
        else (none, cs)

/-- The comparison of two characters at the front of a text, and the rest. -/
def pair? (c : Config) : List Char → Option (String × List Char)
  | a :: b :: rest =>
    let symbol := String.ofList [a, b]
    if c.isComparison symbol then some (symbol, Text.trimStart rest) else none
  | _ => none

/-- The comparison of one character at the front of a text, and the rest. -/
def single? (c : Config) : List Char → Option (String × List Char)
  | a :: rest =>
    let symbol := String.singleton a
    if c.isComparison symbol then some (symbol, Text.trimStart rest) else none
  | [] => none

/-- The bracket at the front of a text, where brackets are read. -/
def bracket? (c : Config) (f : Option QueryFunction) (cs : List Char) : Option Bracket :=
  if c.readsBrackets f then cs.head?.bind Bracket.ofChar? else none

/-- Takes apart what follows the operator: a comparison of two characters, else a bracket, else
a comparison of one character, else nothing but search text. -/
def ofOperand (c : Config) (f : Option QueryFunction) (operator : Option Operator)
    (cs : List Char) : Tokens :=
  match pair? c cs with
  | some (symbol, rest) =>
    { operator, comparison := some symbol, remainder := String.ofList rest }
  | none =>
    match bracket? c f cs with
    | some bracket => { operator, bracket := some bracket }
    | none =>
      match single? c cs with
      | some (symbol, rest) =>
        { operator, comparison := some symbol, remainder := String.ofList rest }
      | none => { operator, remainder := String.ofList cs }

/-- What follows the quote of a free text. -/
def literal? (cs : List Char) : Option (List Char) :=
  match Text.trimStart cs with
  | '"' :: rest => some rest
  | _ => none

def ofChars (c : Config) (f : Option QueryFunction) (cs : List Char) : Tokens :=
  let trimmed := Text.trim cs
  if trimmed.isEmpty then {}
  else
    match literal? cs with
    | some literal => { remainder := String.ofList literal, freeText := true }
    | none =>
      let (operator, rest) :=
        if c.readsOperators f then readOperator c trimmed else (none, trimmed)
      ofOperand c f operator rest

def ofText (c : Config) (f : Option QueryFunction) (text : String) : Tokens :=
  ofChars c f text.toList

end Tokens

end QueryBar
