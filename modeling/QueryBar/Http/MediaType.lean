/-
The media type of a request.

A request says what its body is written in: a type, a subtype and parameters.  A body is
taken for JSON if the subtype is JSON's up to its last plus sign, or JSON's after it.  The
parameters say nothing that matters here, but have to be well formed.  A semicolon ends
what comes before it, and may be the last character of all.
-/

namespace QueryBar.Http

/-! ### Parameters -/

/-- The character may stand in the parts of a media type. -/
def isTokenChar (c : Char) : Bool := c.isAlphanum || "!#$%&'*+-.^_|~`".toList.contains c

def isQuotable (c : Char) : Bool := ' ' ≤ c && c ≤ '~'

/-- What follows the quote that ends a value. -/
def afterQuote? : List Char → Option (List Char)
  | '"' :: cs => some cs
  | c :: cs => if isQuotable c then afterQuote? cs else none
  | [] => none

/-- What follows a quoted value.  Its first character stands for itself, even if it is a quote. -/
def afterQuoted? : List Char → Option (List Char)
  | c :: cs => if isQuotable c then afterQuote? cs else none
  | [] => none

/-- What follows the value of a parameter up to its semicolon.  After a quoted value there may be
blanks, and one that is not quoted may be empty at the end of the text only. -/
def afterValue? : List Char → Option (List Char)
  | '"' :: cs =>
    match (afterQuoted? cs).map fun rest => rest.dropWhile (· == ' ') with
    | some [] => some []
    | some (';' :: rest) => some rest
    | _ => none
  | cs =>
    match cs.takeWhile isTokenChar, cs.dropWhile isTokenChar with
    | _, [] => some []
    | _ :: _, ';' :: rest => some rest
    | _, _ => none

/-- What follows a semicolon is well formed: parameters, each a name and a value, with blanks before
the name. -/
def parametersOk : Nat → List Char → Bool
  | _, [] => true
  | 0, _ => false
  | fuel + 1, ' ' :: cs => parametersOk fuel cs
  | fuel + 1, cs =>
    match cs.takeWhile isTokenChar, cs.dropWhile isTokenChar with
    | _ :: _, '=' :: cs =>
      match afterValue? cs with
      | some rest => parametersOk fuel rest
      | none => false
    | _, _ => false

/-! ### Types -/

/-- What follows the last of some marks, if there is one. -/
def afterLast? (mark : Char) (cs : List Char) : Option (List Char) :=
  if cs.contains mark then some (cs.reverse.takeWhile (· != mark)).reverse else none

/-- The subtype, in lower case, is that of JSON, or of a format that is written in JSON.  A plus
sign at its start belongs to the name. -/
def isJsonSubtype (subtype : List Char) : Bool :=
  let json := "json".toList
  match afterLast? '+' (subtype.drop 1) with
  | some suffix => suffix == json || subtype.take (subtype.length - suffix.length - 1) == json
  | none => subtype == json

/-- The media type is that of JSON, or of a format that is written in JSON. -/
def isJsonType (contentType : String) : Bool :=
  let cs := contentType.toList.map Char.toLower
  match cs.takeWhile isTokenChar, cs.dropWhile isTokenChar with
  | type, '/' :: cs =>
    type == "application".toList && isJsonSubtype (cs.takeWhile isTokenChar) &&
      match cs.dropWhile isTokenChar with
      | [] => true
      | ';' :: rest => parametersOk rest.length rest
      | _ => false
  | _, _ => false

end QueryBar.Http
