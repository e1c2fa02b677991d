/-
Suggestions in ordered, capped categories.

Each source contributes to the bucket with its title, one contribution per definition.
Buckets stand in order of rank: by precedence, and by place in the configuration where
that is equal.  A new bucket is put before the first one it outranks, so the order does
not depend on which source answered first.  The category of function names outranks every
source and has no cap.

Within a bucket the contributions stand in the order of the definitions, so what is shown
does not depend on the order of answers either.  `Bucket.options` reads it off them: all
of them one after the other, each value once, cut to the largest cap unless some
contribution has none.

A bucket without options holds the place of a lookup that has not answered.
-/
import QueryBar.Source
import QueryBar.Suggestion

namespace QueryBar

/-! ### Ranks and categories -/

/-- Where a category stands among others. -/
structure Rank where
  precedence : Int64
  position : Nat
  deriving DecidableEq

namespace Rank

def functions : Rank := ⟨Int64.maxValue, 0⟩

def outranks (r s : Rank) : Bool :=
  s.precedence < r.precedence || (r.precedence == s.precedence && r.position < s.position)

end Rank

/-- What a contribution belongs to. -/
structure Category where
  title : String
  rank : Rank
  deriving DecidableEq

namespace Category

/-- The category of a source that stands at a place of the configuration. -/
def ofSource (s : Source) (position : Nat) : Category := ⟨s.title, s.rank, position⟩

def functionsTitle : String := "Functions"

def functions : Category := ⟨functionsTitle, .functions⟩

end Category

/-! ### One bucket -/

/-- What one definition contributes to a bucket. -/
structure Contribution where
  /-- The place of the definition within its source. -/
  origin : Nat
  options : List Suggestion
  limit : Option Nat
  deriving DecidableEq

namespace Contribution

/-- The suggestions of a definition that had the given ones before, each value once, cut to the
limit. -/
def after (before : List Suggestion) (origin : Nat) (options : List Suggestion)
    (limit : Option Nat) : Contribution :=
  ⟨origin, capped limit (Suggestion.joinDistinct before options), limit⟩

/-- Puts the suggestions of a definition among contributions that ascend by origin. -/
def insert (origin : Nat) (options : List Suggestion) (limit : Option Nat) :
    List Contribution → List Contribution
  | [] => [after [] origin options limit]
  | c :: cs =>
    if c.origin = origin then after c.options origin options limit :: cs
    else if origin < c.origin then after [] origin options limit :: c :: cs
    else c :: insert origin options limit cs

/-- The largest limit, unless some contribution has none or there are no contributions. -/
def cap (cs : List Contribution) : Option Nat :=
  if cs.any (·.limit.isNone) then none else (cs.filterMap (·.limit)).max?

end Contribution

/-- A category and what has been contributed to it. -/
structure Bucket where
  title : String
  rank : Rank
  /-- In ascending order of their origins, each of which occurs once. -/
  contributions : List Contribution
  deriving DecidableEq

namespace Bucket

/-- A bucket to which nothing has been contributed. -/
def empty (c : Category) : Bucket := ⟨c.title, c.rank, []⟩

def options (b : Bucket) : List Suggestion :=
  capped (Contribution.cap b.contributions)
    (b.contributions.foldl (fun shown c => Suggestion.joinDistinct shown c.options) [])

def isPlaceholder (b : Bucket) : Bool := b.options.isEmpty

/-- The bucket with more suggestions of one definition. -/
def contribute (b : Bucket) (origin : Nat) (options : List Suggestion) (limit : Option Nat) :
    Bucket :=
  { b with contributions := Contribution.insert origin options limit b.contributions }

end Bucket

/-! ### All buckets -/

/-- All buckets, in order of rank. -/
abbrev Buckets := List Bucket

namespace Buckets

/-- Puts a bucket before the first one it outranks. -/
def insert (bucket : Bucket) : Buckets → Buckets
  | [] => [bucket]
  | b :: bs => if bucket.rank.outranks b.rank then bucket :: b :: bs else b :: insert bucket bs

def bucket? (bs : Buckets) (title : String) : Option Bucket := bs.find? (·.title == title)

def modify (title : String) (f : Bucket → Bucket) : Buckets → Buckets
  | [] => []
  | b :: bs => if b.title = title then f b :: bs else b :: modify title f bs

/-- Adds what one definition found to a category, which is new or there already. -/
def merge (bs : Buckets) (c : Category) (origin : Nat) (options : List Suggestion)
    (limit : Option Nat) : Buckets :=
  if (bs.bucket? c.title).isSome then bs.modify c.title (·.contribute origin options limit)
  else bs.insert ((Bucket.empty c).contribute origin options limit)

/-- Keeps the place of a category whose lookup has not answered yet. -/
def reserve (bs : Buckets) (c : Category) : Buckets :=
  if (bs.bucket? c.title).isSome then bs else bs.insert (.empty c)

/-- The buckets without a category that shows nothing. -/
def release (bs : Buckets) (title : String) : Buckets :=
  bs.filter fun b => !(b.title == title && b.isPlaceholder)

end Buckets

end QueryBar
