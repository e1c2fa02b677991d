/-
Settings as JSON.

Settings are written as an object with all members in a fixed order.  They are read
strictly: each member has to be of the right kind, but any of them may be missing, and
members of other names are passed over.  A record may also be an array of its members
in order, which may end early, and an enumeration an object with the name as its only
member and `null` as the value.
-/
import QueryBar.Json.Draft
import QueryBar.Settings

namespace QueryBar

open Json

namespace OperatorMode

def all : List OperatorMode := [.simple, .agGrid, .complex]

def name : OperatorMode → String
  | .simple => "Simple"
  | .agGrid => "AgGrid"
  | .complex => "Complex"

def ofName? (s : String) : Option OperatorMode := all.find? (·.name == s)

end OperatorMode

namespace LimitPolicy

def all : List LimitPolicy := [.individual, .orGroup]

def name : LimitPolicy → String
  | .individual => "Individual"
  | .orGroup => "OrGroup"

def ofName? (s : String) : Option LimitPolicy := all.find? (·.name == s)

end LimitPolicy

/-! ### Writing -/

def textsJson (texts : List String) : Json := .array (texts.map .string)

def optionalNat (n : Option UInt64) : Json := .optional (fun n => .nat n.toNat) n

def SourceSpec.toJson (s : SourceSpec) : Json :=
  .object [("name", .string s.name), ("title", .string s.title),
    ("comparisons", textsJson s.comparisons),
    ("precedence", .optional (fun p => .integer p.toInt) s.precedence),
    ("selection_limit", optionalNat s.selectionLimit), ("functional", .bool s.functional),
    ("items", textsJson s.items), ("pattern", .optional .string s.pattern),
    ("ignore_case", .bool s.ignoreCase), ("item_limit", optionalNat s.itemLimit)]

def Settings.toJson (s : Settings) : Json :=
  .object [("listen", .string s.listen), ("default_comparison", .string s.defaultComparison),
    ("and", .string s.andSymbol), ("or", .string s.orSymbol),
    ("operators", .string s.mode.name), ("default_item_limit", .nat s.itemLimit.toNat),
    ("search_start_length", .nat s.startLength.toNat), ("promise_delay_ms", .nat s.delay.toNat),
    ("show_when_searching", .bool s.showWhenSearching),
    ("allow_free_text", .bool s.allowFreeText), ("limit_policy", .string s.limitPolicy.name),
    ("sources", .array (s.sources.map SourceSpec.toJson))]

/-! ### Reading

The fields of a record are looked up in an object by name and in an array by place, so a
record reader is written once for both: it is given a way to look up a field. -/

/-- Looks up a field by its name and its place. -/
abbrev Fields := String → Nat → Option Json

/-- The fields of a JSON value that has fields; an array has no more than `count`. -/
def Fields.ofJson? (count : Nat) : Json → Option Fields
  | .object members => some fun name _ => members.lookup name
  | .array items => if items.length ≤ count then some fun _ place => items[place]? else none
  | _ => none

/-- A field that may be missing, read in some way. -/
def Fields.get? {α : Type} (fields : Fields) (name : String) (place : Nat) (missing : α)
    (read? : Json → Option α) : Option α :=
  match fields name place with
  | some j => read? j
  | none => some missing

def textOfJson? : Json → Option String
  | .string s => some s
  | _ => none

def boolOfJson? : Json → Option Bool
  | .bool b => some b
  | _ => none

def uint64OfJson? : Json → Option UInt64
  | .integer i => if FitsUnsigned i then some (.ofNat i.toNat) else none
  | _ => none

def int64OfJson? : Json → Option Int64
  | .integer i => if FitsSigned i then some (.ofInt i) else none
  | _ => none

/-- `null` or something else. -/
def optionOfJson? {α : Type} (read? : Json → Option α) : Json → Option (Option α)
  | .null => some none
  | j => (read? j).map some

def listOfJson? {α : Type} (read? : Json → Option α) : Json → Option (List α)
  | .array items => items.mapM read?
  | _ => none

/-- One of several names, or an object with the name as its only member. -/
def namedOfJson? {α : Type} (ofName? : String → Option α) : Json → Option α
  | .string s => ofName? s
  | .object [(s, .null)] => ofName? s
  | _ => none

def SourceSpec.ofJson? (j : Json) : Option SourceSpec := do
  let fields ← Fields.ofJson? 10 j
  return {
    name := ← fields.get? "name" 0 "" textOfJson?
    title := ← fields.get? "title" 1 "" textOfJson?
    comparisons := ← fields.get? "comparisons" 2 [] (listOfJson? textOfJson?)
    precedence := ← fields.get? "precedence" 3 none (optionOfJson? int64OfJson?)
    selectionLimit := ← fields.get? "selection_limit" 4 none (optionOfJson? uint64OfJson?)
    functional := ← fields.get? "functional" 5 false boolOfJson?
    items := ← fields.get? "items" 6 [] (listOfJson? textOfJson?)
    pattern := ← fields.get? "pattern" 7 none (optionOfJson? textOfJson?)
    ignoreCase := ← fields.get? "ignore_case" 8 false boolOfJson?
    itemLimit := ← fields.get? "item_limit" 9 none (optionOfJson? uint64OfJson?) }

def Settings.ofJson? (j : Json) : Option Settings := do
  let fields ← Fields.ofJson? 12 j
  let standard : Settings := {}
  return {
    listen := ← fields.get? "listen" 0 standard.listen textOfJson?
    defaultComparison :=
      ← fields.get? "default_comparison" 1 standard.defaultComparison textOfJson?
    andSymbol := ← fields.get? "and" 2 standard.andSymbol textOfJson?
    orSymbol := ← fields.get? "or" 3 standard.orSymbol textOfJson?
    mode := ← fields.get? "operators" 4 standard.mode (namedOfJson? OperatorMode.ofName?)
    itemLimit := ← fields.get? "default_item_limit" 5 standard.itemLimit uint64OfJson?
    startLength := ← fields.get? "search_start_length" 6 standard.startLength uint64OfJson?
    delay := ← fields.get? "promise_delay_ms" 7 standard.delay uint64OfJson?
    showWhenSearching :=
      ← fields.get? "show_when_searching" 8 standard.showWhenSearching boolOfJson?
    allowFreeText := ← fields.get? "allow_free_text" 9 standard.allowFreeText boolOfJson?
    limitPolicy :=
      ← fields.get? "limit_policy" 10 standard.limitPolicy (namedOfJson? LimitPolicy.ofName?)
    sources := ← fields.get? "sources" 11 [] (listOfJson? SourceSpec.ofJson?) }

def Settings.text (s : Settings) : String := s.toJson.compact

/-- Reads settings from a text that holds nothing else. -/
def Settings.ofText? (text : String) : Option Settings :=
  (Json.read? text).bind Settings.ofJson?

end QueryBar
