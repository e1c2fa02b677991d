/-
Going round.

Highlights, categories and matchers are gone through with keys that start again at the
other end.  Places are counted from nought; `n` is how many there are.
-/

namespace QueryBar.Cycle

/-- The place after another, the first one after the last. -/
def next (n i : Nat) : Nat := if i + 1 < n then i + 1 else 0

/-- The place before another, the last one before the first. -/
def previous (n i : Nat) : Nat := if 0 < i then i - 1 else n - 1

/-- The place after or before another. -/
def go (forward : Bool) (n i : Nat) : Nat := if forward then next n i else previous n i

end QueryBar.Cycle
