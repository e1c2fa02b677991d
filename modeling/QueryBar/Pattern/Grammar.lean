/-
How patterns are spelled.

A pattern is read from left to right with a stack of the groups that are still open.
Each group collects the parts of the branch being read and the branches before it.  A
repetition sign takes the part before it, so there has to be one; it can be repeated
again, and a question mark after it asks for short matches, which makes no difference to
whether there is one.

Literals, escaped punctuation, the point, classes, the anchors, branches, groups and the
repetition signs are spelled as usual.  Whatever is not read here is refused, and so is a
pattern that is nested too deep, that names two groups alike, or whose automaton would be
too large.
-/
import QueryBar.Pattern.Depth
import QueryBar.Pattern.Size
import QueryBar.Text.Blank

namespace QueryBar.Pattern

/-! ### Parts of a spelling -/

/-- The character that a backslash and a letter or mark stand for. -/
def escaped? (c : Char) : Option Char :=
  if c = 'n' then some '\n'
  else if c = 't' then some '\t'
  else if c = 'r' then some '\r'
  else if c = 'f' then some '\x0c'
  else if c = 'v' then some '\x0b'
  else if c = 'a' then some '\x07'
  else if c.toNat < 128 ∧ !c.isAlphanum ∧ c ≠ '<' ∧ c ≠ '>' then some c
  else none

/-- One character of a class, and the rest. -/
def classChar? : List Char → Option (Char × List Char)
  | '\\' :: c :: cs => (escaped? c).map (·, cs)
  | '\\' :: [] => none
  | c :: cs => some (c, cs)
  | [] => none

/-- The ranges of a class up to its bracket.  A dash makes a range unless a bracket or
another dash follows it; a class inside a class and two of the marks that combine classes
are refused. -/
def classRanges? (fuel : Nat) (ranges : List (Char × Char)) (cs : List Char) :
    Option (List (Char × Char) × List Char) :=
  match fuel with
  | 0 => none
  | fuel + 1 =>
    match cs with
    | ']' :: cs => some (ranges.reverse, cs)
    | '[' :: _ | '&' :: '&' :: _ | '-' :: '-' :: _ | '~' :: '~' :: _ => none
    | cs =>
      match classChar? cs with
      | none => none
      | some (low, '-' :: ']' :: cs) => classRanges? fuel ((low, low) :: ranges) ('-' :: ']' :: cs)
      | some (low, '-' :: '-' :: cs) => classRanges? fuel ((low, low) :: ranges) ('-' :: '-' :: cs)
      | some (low, '-' :: cs) =>
        match classChar? cs with
        | none => none
        | some (high, cs) =>
          if low ≤ high then classRanges? fuel ((low, high) :: ranges) cs else none
      | some (low, cs) => classRanges? fuel ((low, low) :: ranges) cs

/-- The dashes that open a class stand for themselves. -/
def leadingDashes (cs : List Char) : List (Char × Char) × List Char :=
  ((cs.takeWhile (· == '-')).map fun c => (c, c), cs.dropWhile (· == '-'))

/-- A class after its opening bracket; a closing bracket that comes first stands for itself. -/
def class? (cs : List Char) : Option (CharSet × List Char) :=
  let (negated, cs) := match cs with
    | '^' :: cs => (true, cs)
    | cs => (false, cs)
  let (dashes, cs) := leadingDashes cs
  let (first, cs) := match dashes, cs with
    | [], ']' :: cs => ([(']', ']')], cs)
    | dashes, cs => (dashes, cs)
  (classRanges? (cs.length + 1) first.reverse cs).map fun (ranges, cs) => (⟨negated, ranges⟩, cs)

/-- A count with blanks around it, below `2 ^ 32`. -/
def count? (cs : List Char) : Option (Nat × List Char) :=
  let cs := cs.dropWhile Text.isBlank
  let digits := cs.takeWhile Char.isDigit
  let n := Nat.ofDigitChars 10 digits 0
  if digits.isEmpty || Nat.pow 2 32 ≤ n then none
  else some (n, (cs.dropWhile Char.isDigit).dropWhile Text.isBlank)

/-- The bounds of a repetition after its opening brace. -/
def bounds? (cs : List Char) : Option (Nat × Option Nat × List Char) :=
  match count? cs with
  | none => none
  | some (min, '\x7d' :: cs) => some (min, some min, cs)
  | some (min, ',' :: '\x7d' :: cs) => some (min, none, cs)
  | some (min, ',' :: cs) =>
    match count? cs with
    | some (max, '\x7d' :: cs) => if min ≤ max then some (min, some max, cs) else none
    | _ => none
  | some _ => none

/-- The bounds that the repetition sign at the front stands for, and the rest. -/
def repetition? : List Char → Option (Nat × Option Nat × List Char)
  | '?' :: cs => some (0, some 1, cs)
  | '*' :: cs => some (0, none, cs)
  | '+' :: cs => some (1, none, cs)
  | '\x7b' :: cs => bounds? cs
  | _ => none

/-- Whether a question mark follows a repetition sign, and the rest. -/
def lazyMark : List Char → Bool × List Char
  | '?' :: cs => (true, cs)
  | cs => (false, cs)

/-! ### Groups -/

/-- What stands between the bracket that opens a group and its pattern: nothing, the mark of a
group that is not counted, or a name. -/
structure GroupHead where
  counted : Bool
  name : Option (List Char)

/-- The characters make a name: a letter or an underscore, and then also digits, points and
brackets. -/
def isGroupName : List Char → Bool
  | [] => false
  | c :: cs =>
    (c == '_' || Text.isAlphabetic c) &&
      cs.all fun c => "_.[]".toList.contains c || Text.isAlphanumeric c

/-- The head of a group after its bracket, and the rest. -/
def groupHead? : List Char → Option (GroupHead × List Char)
  | '?' :: ':' :: cs => some (⟨false, none⟩, cs)
  | '?' :: 'P' :: '<' :: cs | '?' :: '<' :: cs =>
    let name := cs.takeWhile (· != '>')
    match cs.drop name.length with
    | '>' :: rest => if isGroupName name then some (⟨true, some name⟩, rest) else none
    | _ => none
  | '?' :: _ => none
  | cs => some (⟨true, none⟩, cs)

/-- A group that is being read: the branches before, and the parts of this one, in reverse. -/
structure OpenGroup where
  counted : Bool
  branches : List Pattern
  parts : List Pattern

namespace OpenGroup

def fresh (counted : Bool) : OpenGroup := ⟨counted, [], []⟩

/-- The parts of the branch being read, one after the other. -/
def branch (g : OpenGroup) : Pattern :=
  match g.parts with
  | [] => .empty
  | [p] => p
  | ps => .seq ps.reverse

def close (g : OpenGroup) : Pattern :=
  match g.branches with
  | [] => g.branch
  | branches => .alt (g.branch :: branches).reverse

/-- The group with one part more. -/
def push (g : OpenGroup) (p : Pattern) : OpenGroup := { g with parts := p :: g.parts }

/-- The group with the next branch begun. -/
def nextBranch (g : OpenGroup) : OpenGroup :=
  { g with branches := g.branch :: g.branches, parts := [] }

/-- The group with its last part repeated as the sign at the front of a text says, and the rest
after the sign. -/
def repeated? (g : OpenGroup) (cs : List Char) : Option (OpenGroup × List Char) :=
  match g.parts, repetition? cs with
  | p :: ps, some (min, max, rest) =>
    let (short, rest) := lazyMark rest
    some ({ g with parts := .times p min max short :: ps }, rest)
  | _, _ => none

end OpenGroup

/-! ### Whole patterns -/

/-- What a backslash and a character stand for outside classes. -/
def escapedPart? (c : Char) : Option Pattern :=
  if c = '<' then some .wordStart
  else if c = '>' then some .wordEnd
  else (escaped? c).map .char

/-- Reads a pattern; `names` are those of groups so far, and `stack` holds the groups around the
one being read. -/
def readParts? (fuel : Nat) (names : List (List Char)) (stack : List OpenGroup) (g : OpenGroup)
    (cs : List Char) : Option Pattern :=
  match fuel with
  | 0 => none
  | fuel + 1 =>
    match cs with
    | [] => if stack.isEmpty then some g.close else none
    | '(' :: cs =>
      match groupHead? cs with
      | some (head, cs) =>
        if head.name.any names.contains then none
        else readParts? fuel (head.name.toList ++ names) (g :: stack) (.fresh head.counted) cs
      | none => none
    | ')' :: cs =>
      match stack with
      | outer :: stack => readParts? fuel names stack (outer.push (.group g.close g.counted)) cs
      | [] => none
    | '|' :: cs => readParts? fuel names stack g.nextBranch cs
    | '[' :: cs =>
      match class? cs with
      | some (set, cs) => readParts? fuel names stack (g.push (.inSet set)) cs
      | none => none
    | '\\' :: c :: cs =>
      match escapedPart? c with
      | some p => readParts? fuel names stack (g.push p) cs
      | none => none
    | '\\' :: [] => none
    | '.' :: cs => readParts? fuel names stack (g.push .dot) cs
    | '^' :: cs => readParts? fuel names stack (g.push .start) cs
    | '$' :: cs => readParts? fuel names stack (g.push .finish) cs
    | '?' :: _ | '*' :: _ | '+' :: _ | '\x7b' :: _ =>
      match g.repeated? cs with
      | some (g, cs) => readParts? fuel names stack g cs
      | none => none
    | c :: cs => readParts? fuel names stack (g.push (.char c)) cs

def ofText? (text : String) : Option Pattern :=
  match readParts? (text.length + 1) [] [] (.fresh false) text.toList with
  | some p => if p.depth ≤ depthLimit && p.isSmall then some p else none
  | none => none

end QueryBar.Pattern
