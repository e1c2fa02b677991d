/-
The space of an automaton that chooses between words.

Words that begin alike share states.  The first of several words that match is to be taken,
so a word that ends where others go on cuts them into those before it and those after it,
and no states are shared across the cut.
-/
import QueryBar.Pattern.Extent

namespace QueryBar.Pattern

/-- Words cut into stretches by those that are empty. -/
def stretches : List (List Nat) → List (List (List Nat))
  | [] => [[]]
  | [] :: words => [] :: stretches words
  | word :: words =>
    match stretches words with
    | first :: more => (word :: first) :: more
    | [] => [[word]]

/-- The words that begin with a byte, without it. -/
def after (byte : Nat) (words : List (List Nat)) : List (List Nat) :=
  words.filterMap fun word => if word.head? = some byte then some word.tail else none

/-- The size of the states that choose between words, none of them longer than `fuel`.  Words that
begin alike share states up to where a shorter word among them ends. -/
def wordsSize : Nat → List (List Nat) → Nat
  | 0, _ => 0
  | fuel + 1, words =>
    let words := if words.head? = some [] then [] :: words.dropWhile (·.isEmpty) else words
    if words.all (·.isEmpty) then 0
    else
      let groups := stretches words
      let filled := groups.filter fun g => !g.isEmpty
      let ends := linkSize * (filled.length + (groups.length - 1))
      filled.foldl (fun n g =>
        let bytes : List Nat := (g.filterMap fun word => word.head?).eraseDups
        let size := if bytes.length = 1 then stateSize else branchingSize bytes.length
        bytes.foldl (fun n byte => n + wordsSize fuel (after byte g)) (n + size))
        (stateSize + ends)

/-- The size of an automaton that chooses between words. -/
def choiceSize (words : List (List Nat)) : Nat :=
  let longest := words.foldl (fun n word => max n word.length) 0
  stateSize + wordsSize (longest + 1) words

end QueryBar.Pattern
