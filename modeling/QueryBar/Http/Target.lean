/-
The target of a request.

A target is a path, perhaps with a query and a fragment after it, or a whole address: a
scheme, a host with all that belongs to it, and then a path.  Only the path says what is
asked for.
-/

namespace QueryBar.Http

def isSchemeChar (c : Char) : Bool := c.isAlphanum || c == '+' || c == '-' || c == '.'

/-- A query or a fragment begins with the character. -/
def endsPath (c : Char) : Bool := c == '?' || c == '#'

def afterScheme? (target : List Char) : Option (List Char) :=
  match target.dropWhile isSchemeChar with
  | ':' :: '/' :: '/' :: rest => some rest
  | _ => none

/-- An address without scheme and host; a target without a scheme is a path or has none. -/
def afterHost (target : List Char) : List Char :=
  match target with
  | '/' :: _ => target
  | _ =>
    match afterScheme? target with
    | some rest => rest.dropWhile fun c => c != '/' && !endsPath c
    | none => []

def pathOf (target : String) : String :=
  String.ofList ((afterHost target.toList).takeWhile fun c => !endsPath c)

end QueryBar.Http
