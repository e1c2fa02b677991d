/-
Settings from a file and from variables.

The settings of a running program come in layers: what a file says, then what variables
of the environment say, which win.  A variable counts if its name begins with `QUERYBOX_`,
in any case; its text is taken for a truth value or a number if it reads as one.  What a
member of the file or a variable sets is found by the path that its name spells.

Texts in variables and hand-written files are not always of the kind that is wanted, so
the reading is loose: numbers, truth values and texts stand for one another wherever
that makes sense.  An absent or null field has no such meaning unless it is optional.
-/
import QueryBar.Settings.Codec
import QueryBar.Settings.Path

namespace QueryBar.Settings

/-! ### Loose reading -/

/-- A number rounded to the nearest integer, a half away from nought, and kept in bounds. -/
def roundedWithin (low high : Int) : Number → Int
  | .nan => 0
  | .infinite negative => if negative then low else high
  | .finite negative m =>
    let magnitude : Int := ((2 * m.num + m.den) / (2 * m.den) : Nat)
    max low (min high (if negative then -magnitude else magnitude))

/-- The words for yes and no. -/
def wordValue? (s : String) : Option Bool :=
  let word := String.ofList (s.toList.map Char.toLower)
  if ["true", "on", "yes"].contains word then some true
  else if ["false", "off", "no"].contains word then some false
  else none

/-- A text, or whatever can be written as one. -/
def looseText? (j : Json) : Option String :=
  match j with
  | .string s => some s
  | .bool b => some (if b then "true" else "false")
  | .integer i => some (toString i)
  | .number x => some x.plainText
  | _ => none

/-- A truth value, a number that is or is not nought, or a word for yes or no. -/
def looseBool? (j : Json) : Option Bool :=
  match j with
  | .bool b => some b
  | .integer i => some (i != 0)
  | .number x => some (!x.same (.zero false))
  | .string s => if s = "1" then some true else if s = "0" then some false else wordValue? s
  | _ => none

/-- An integer within bounds: a rounded number, a truth value, or a text that spells one. -/
def looseInt? (low high : Int) (j : Json) : Option Int :=
  match j with
  | .integer i => if low ≤ i ∧ i ≤ high then some i else none
  | .number x => some (roundedWithin low high x)
  | .bool b => some (if b then 1 else 0)
  | .string s =>
    match wordValue? s with
    | some b => some (if b then 1 else 0)
    | none => spelled? s
  | _ => none
where
  /-- The integer that a sign and digits spell. -/
  spelled? (s : String) : Option Int :=
    let (negative, digits) := readSign s.toList
    if digits.isEmpty || !digits.all Char.isDigit || (negative && low == 0) then none
    else
      let i : Int := if negative then -digitsValue digits else digitsValue digits
      if low ≤ i ∧ i ≤ high then some i else none

def looseUInt64? (j : Json) : Option UInt64 :=
  (looseInt? 0 18446744073709551615 j).map fun i => .ofNat i.toNat

def looseInt64? (j : Json) : Option Int64 :=
  (looseInt? (-9223372036854775808) 9223372036854775807 j).map .ofInt

/-- One of several names, or an object with the name as its only member. -/
def looseNamed? {α : Type} (ofName? : String → Option α) : Json → Option α
  | .string s => ofName? s
  | .object [(s, _)] => ofName? s
  | _ => none

/-- The fields of a JSON value that has fields. -/
def looseFields? : Json → Option Fields
  | .object members => some fun name _ => members.lookup name
  | .array items => some fun _ place => items[place]?
  | _ => none

def looseSource? (j : Json) : Option SourceSpec := do
  let fields ← looseFields? j
  return {
    name := ← fields.get? "name" 0 "" looseText?
    title := ← fields.get? "title" 1 "" looseText?
    comparisons := ← fields.get? "comparisons" 2 [] (listOfJson? looseText?)
    precedence := ← fields.get? "precedence" 3 none (optionOfJson? looseInt64?)
    selectionLimit := ← fields.get? "selection_limit" 4 none (optionOfJson? looseUInt64?)
    functional := ← fields.get? "functional" 5 false looseBool?
    items := ← fields.get? "items" 6 [] (listOfJson? looseText?)
    pattern := ← fields.get? "pattern" 7 none (optionOfJson? looseText?)
    ignoreCase := ← fields.get? "ignore_case" 8 false looseBool?
    itemLimit := ← fields.get? "item_limit" 9 none (optionOfJson? looseUInt64?) }

/-- Reads settings loosely from their fields. -/
def ofFields? (fields : Fields) : Option Settings := do
  let standard : Settings := {}
  return {
    listen := ← fields.get? "listen" 0 standard.listen looseText?
    defaultComparison :=
      ← fields.get? "default_comparison" 1 standard.defaultComparison looseText?
    andSymbol := ← fields.get? "and" 2 standard.andSymbol looseText?
    orSymbol := ← fields.get? "or" 3 standard.orSymbol looseText?
    mode := ← fields.get? "operators" 4 standard.mode (looseNamed? OperatorMode.ofName?)
    itemLimit := ← fields.get? "default_item_limit" 5 standard.itemLimit looseUInt64?
    startLength := ← fields.get? "search_start_length" 6 standard.startLength looseUInt64?
    delay := ← fields.get? "promise_delay_ms" 7 standard.delay looseUInt64?
    showWhenSearching :=
      ← fields.get? "show_when_searching" 8 standard.showWhenSearching looseBool?
    allowFreeText := ← fields.get? "allow_free_text" 9 standard.allowFreeText looseBool?
    limitPolicy :=
      ← fields.get? "limit_policy" 10 standard.limitPolicy (looseNamed? LimitPolicy.ofName?)
    sources := ← fields.get? "sources" 11 [] (listOfJson? looseSource?) }

/-! ### Layers -/

/-- What the names of variables start with, in lower case. -/
def variableMark : String := "querybox_"

/-- The name of what a variable sets, if it sets something. -/
def nameOfVariable? (name : String) : Option String :=
  let name := name.toList.map Char.toLower
  if variableMark.toList.isPrefixOf name then
    some (String.ofList (name.drop variableMark.length))
  else none

/-- What the text of a variable stands for. -/
def valueOfVariable (text : String) : Json :=
  let word := String.ofList (text.toList.map Char.toLower)
  if word = "true" then .bool true
  else if word = "false" then .bool false
  else
    match int64OfText? text with
    | some i => .integer i
    | none =>
      match Number.ofText? text with
      | some x => .number x
      | none => .string text

def ofVariables (environment : List (String × String)) : List (String × Json) :=
  environment.filterMap fun (name, text) =>
    (nameOfVariable? name).map fun name => (name, valueOfVariable text)

/-- Lays a layer over a value: each of its members is set at the path that its name spells. -/
def layOver (there : Json) (layer : List (String × Json)) : Json :=
  layer.foldl (fun there (name, j) => setAt (pathOfName name) j there) there

/-- A text without the mark of its encoding, which may stand at the start of a file. -/
def withoutMark (text : List Char) : List Char :=
  match text with
  | '\ufeff' :: rest => rest
  | _ => text

/-- What the text of a settings file sets; it has to be an object. -/
def ofFile? (text : String) : Option (List (String × Json)) :=
  match Json.read? (String.ofList (withoutMark text.toList)) with
  | some (.object members) => some members
  | _ => none

/-- Reads the text of a settings file, if there is one, and lets the variables win over it. -/
def load (file : Option String) (environment : List (String × String)) : Except BarError Settings :=
  let members? := match file with
    | none => some []
    | some text => ofFile? text
  let settings? := members?.bind fun members =>
    ((looseFields? (layOver (layOver (.object []) members) (ofVariables environment))).bind
      ofFields?)
  match settings? with
  | some s => .ok s
  | none => .error .badSettings

end QueryBar.Settings
