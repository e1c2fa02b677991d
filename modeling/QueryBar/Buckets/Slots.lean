/-
The slots of a list of buckets.

The keyboard goes through suggestions slot by slot and through categories bucket by
bucket.  Each suggestion takes up a slot, and so does a bucket that shows nothing, so
that the keyboard can stop on the row that says a lookup is under way.
-/
import QueryBar.Buckets
import QueryBar.Cycle

namespace QueryBar

def Bucket.slotCount (b : Bucket) : Nat := max b.options.length 1

namespace Buckets

/-- How many slots there are to stop on. -/
def total (bs : Buckets) : Nat := bs.foldr (fun b n => b.slotCount + n) 0

/-- What stands on a slot: nothing on that of a placeholder, or behind the last. -/
def get? : Buckets → Nat → Option Suggestion
  | [], _ => none
  | b :: bs, slot => if slot < b.slotCount then b.options[slot]? else get? bs (slot - b.slotCount)

def placeOf? : Buckets → Nat → Option Nat
  | [], _ => none
  | b :: bs, slot =>
    if slot < b.slotCount then some 0 else (placeOf? bs (slot - b.slotCount)).map (· + 1)

def firstSlot (bs : Buckets) (place : Nat) : Nat := total (bs.take place)

/-- The first slot of the category after or before the one a slot lies in, going round; slots
behind the last one count to the last category. -/
def turnPage (bs : Buckets) (slot : Nat) (forward : Bool) : Nat :=
  bs.firstSlot (Cycle.go forward bs.length ((bs.placeOf? slot).getD (bs.length - 1)))

end Buckets

end QueryBar
