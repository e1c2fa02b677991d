/-
What can go wrong, by cause.

Faults of a configuration, of a dragged matcher, of a lookup and of a caller are told
apart by kind.  Where the wording belongs to this library, `message?` gives it; how a
pattern or a file is broken is for the reader of patterns or files to say.
-/

namespace QueryBar

/-- The cause of a failure. -/
inductive BarError
  /-- A pattern is not spelled as patterns are. -/
  | badPattern
  /-- A settings file or variable cannot be read. -/
  | badSettings
  | duplicateSource (name : String)
  | sameSymbols (symbol : String)
  /-- A dragged matcher or a set of settings cannot be read. -/
  | badPayload
  /-- Nobody is left to receive the answers of lookups. -/
  | receiverGone (source : String)
  | noAnchor (key : String)
  | noDragged (key : String)
  deriving DecidableEq

/-- The kinds of failure that are told apart. -/
inductive ErrorKind
  | config
  | payload
  | lookup
  | invariant
  deriving DecidableEq

namespace BarError

def kind : BarError → ErrorKind
  | .badPattern | .badSettings | .duplicateSource _ | .sameSymbols _ => .config
  | .badPayload => .payload
  | .receiverGone _ => .lookup
  | .noAnchor _ | .noDragged _ => .invariant

/-- The wording, where it is this library's. -/
def message? : BarError → Option String
  | .badPattern | .badSettings | .badPayload => none
  | .duplicateSource name => some ("Config error: duplicate data source name '" ++ name ++ "'")
  | .sameSymbols symbol =>
    some ("Config error: and/or symbols must differ, both are '" ++ symbol ++ "'")
  | .receiverGone source =>
    some ("Lookup error: " ++ source ++ ": result receiver has been dropped")
  | .noAnchor key =>
    some ("Internal invariant violated: no matcher '" ++ key ++ "' to insert before")
  | .noDragged key => some ("Internal invariant violated: no matcher '" ++ key ++ "' to drag")

end BarError

end QueryBar
