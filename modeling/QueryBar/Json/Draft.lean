/-
JSON text as a tree that may be torn.

The second step of reading: lexemes become a tree, and where the text stops being JSON
the tree is torn.  A torn tree still has everything that came before the tear, in order,
so a reader who walks it from left to right notices a value of the wrong kind before a
tear that comes later, and the tear before a wrong value that comes later.  Which of the
two comes first decides how a faulty request is answered.

A tear is a leaf `torn` where a value should stand, or an ending that is not `closed`.
`Draft.json?` accepts only a draft that stands for a value.
-/
import QueryBar.Json.Lexeme

namespace QueryBar.Json

/-- How an array or object ends. -/
inductive Ending
  /-- With its bracket. -/
  | closed
  /-- With something no JSON text can hold there, or with the end of the text. -/
  | torn
  deriving DecidableEq

/-- A tree read from lexemes.  A name or text is missing when it holds half a surrogate pair. -/
inductive Draft
  | null
  | bool (b : Bool)
  | numeral (n : Numeral)
  | text (t : Option String)
  | array (items : List Draft) (ending : Ending)
  | object (members : List (Option String × Draft)) (ending : Ending)
  | torn

/-- An array or object that is still open, with what it holds so far in reverse. -/
inductive Frame
  | array (done : List Draft)
  | object (done : List (Option String × Draft)) (key : Option String)

namespace Draft

/-! ### From lexemes to a tree -/

/-- The tree of the open frames, torn at the value that should come next. -/
def tear : List Frame → Draft → Draft
  | [], d => d
  | .array done :: stack, d => tear stack (.array (d :: done).reverse .torn)
  | .object done key :: stack, d => tear stack (.object ((key, d) :: done).reverse .torn)

mutual

/-- Reads a value inside the open frames and goes on until the outermost value is complete. -/
def readValue (stack : List Frame) : List Lexeme → Draft × List Lexeme
  | .null :: ls => afterValue .null stack ls
  | .bool b :: ls => afterValue (.bool b) stack ls
  | .numeral n :: ls => afterValue (.numeral n) stack ls
  | .text t :: ls => afterValue (.text t) stack ls
  | .openArray :: .closeArray :: ls => afterValue (.array [] .closed) stack ls
  | .openArray :: ls => readValue (.array [] :: stack) ls
  | .openObject :: .closeObject :: ls => afterValue (.object [] .closed) stack ls
  | .openObject :: ls => readMember [] stack ls
  | ls => (tear stack .torn, ls)

/-- Reads a name and its colon; the value comes next. -/
def readMember (done : List (Option String × Draft)) (stack : List Frame) :
    List Lexeme → Draft × List Lexeme
  | .text key :: .colon :: ls => readValue (.object done key :: stack) ls
  | .text key :: ls => (tear (.object done key :: stack) .torn, ls)
  | ls => (tear stack (.object done.reverse .torn), ls)

/-- Puts a value into its frame; a comma leads to the next one, a bracket closes the frame. -/
def afterValue (d : Draft) (stack : List Frame) (ls : List Lexeme) : Draft × List Lexeme :=
  match stack, ls with
  | [], ls => (d, ls)
  | .array done :: stack, .comma :: ls => readValue (.array (d :: done) :: stack) ls
  | .array done :: stack, .closeArray :: ls =>
    afterValue (.array (d :: done).reverse .closed) stack ls
  | .object done key :: stack, .comma :: ls => readMember ((key, d) :: done) stack ls
  | .object done key :: stack, .closeObject :: ls =>
    afterValue (.object ((key, d) :: done).reverse .closed) stack ls
  | stack, ls => (tear stack d, ls)

end

/-- The first value of a text, and the lexemes after it. -/
def ofLexemes (ls : List Lexeme) : Draft × List Lexeme := readValue [] ls

/-! ### Drafts that stand for a value -/

mutual

/-- There is no tear anywhere; this is all that is asked of a value that is skipped. -/
def isWhole : Draft → Bool
  | .torn => false
  | .array items ending => ending = .closed && areWhole items
  | .object members ending => ending = .closed && membersWhole members
  | _ => true

def areWhole : List Draft → Bool
  | [] => true
  | d :: ds => isWhole d && areWhole ds

def membersWhole : List (Option String × Draft) → Bool
  | [] => true
  | (_, d) :: ms => isWhole d && membersWhole ms

end

/-! ### The value of a draft -/

/-- Puts a member among others that are sorted by name; an equal name gives way. -/
def insertMember (name : String) (j : Json) : List (String × Json) → List (String × Json)
  | [] => [(name, j)]
  | (other, k) :: ms =>
    if name = other then (name, j) :: ms
    else if name < other then (name, j) :: (other, k) :: ms
    else (other, k) :: insertMember name j ms

mutual

/-- The value a draft stands for, with members sorted by name and of equal names the last.
Arrays and objects may be nested to a depth less than `room`. -/
def json? (room : Nat) : Draft → Option Json
  | .null => some .null
  | .bool b => some (.bool b)
  | .numeral n => n.value?
  | .text t => t.map .string
  | .array items ending =>
    if ending = .closed ∧ 1 < room then (items? (room - 1) items).map .array else none
  | .object members ending =>
    if ending = .closed ∧ 1 < room then (members? (room - 1) [] members).map .object else none
  | .torn => none

/-- The values of all drafts. -/
def items? (room : Nat) : List Draft → Option (List Json)
  | [] => some []
  | d :: ds =>
    match json? room d, items? room ds with
    | some j, some js => some (j :: js)
    | _, _ => none

/-- The values of all members, added to those already sorted. -/
def members? (room : Nat) (sorted : List (String × Json)) :
    List (Option String × Draft) → Option (List (String × Json))
  | [] => some sorted
  | (some name, d) :: ms =>
    match json? room d with
    | some j => members? room (insertMember name j sorted) ms
    | none => none
  | (none, _) :: _ => none

end

/-- How deep arrays and objects may be nested, plus one. -/
def nestingRoom : Nat := 128

end Draft

/-- The value of a text that holds one JSON value and nothing else. -/
def read? (text : String) : Option Json :=
  match Draft.ofLexemes (Lexeme.scan text.toList) with
  | (d, []) => d.json? Draft.nestingRoom
  | _ => none

end QueryBar.Json
