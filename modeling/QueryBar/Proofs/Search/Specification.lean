/-
What a search has to come to, said without buckets.

`SearchContext.find` asks one definition after the other and merges what it gets into
buckets.  Here the outcome is described the other way round, category by category: which
sources have something to show, in which order they stand, and what each of them shows.
Nothing is inserted, merged or reserved along the way.

A definition either has an offering at once, or a service that has to be asked, or
neither.  A source shows the offerings of its definitions one after the other: of each
offering the first suggestions with different values up to its limit, of all of them
together each value once, and of that no more than the largest limit, unless some
offering has none.
-/
import QueryBar.Search

namespace QueryBar

/-- Suggestions of one definition, and how many of them count at most. -/
structure Offering where
  options : List Suggestion
  limit : Option Nat

/-- The suggestions with different values, the first of each value. -/
def firstOfEach (options : List Suggestion) : List Suggestion :=
  options.eraseDupsBy fun s t => t.agrees s

namespace Offering

/-- What counts of an offering. -/
def kept (o : Offering) : List Suggestion := capped o.limit (firstOfEach o.options)

/-- The largest limit, unless some offering has none or there are no offerings. -/
def cap (os : List Offering) : Option Nat :=
  if os.any (·.limit.isNone) then none else (os.filterMap (·.limit)).max?

end Offering

namespace Definition

/-- What a definition of a source has for a text at once: a list that needs no more characters
its matching items, if there are any, and a test that is passed the derived value. -/
def offering? (s : Source) (standard : Nat) (search : String) : Definition → Option Offering
  | .list l =>
    match l.supply with
    | .items items =>
      let accepted := items.filter (l.accepts search)
      if search.length < l.minLength || accepted.isEmpty then none
      else some ⟨l.suggestions s accepted, some (l.limit standard)⟩
    | .service _ => none
  | .test t =>
    if t.accepts search then
      some ⟨[⟨s.name, t.derived search, (t.derived search).display⟩], none⟩
    else none

/-- The service that a definition has to ask about a text. -/
def service? (search : String) : Definition → Option Service
  | .list l =>
    match l.supply with
    | .items _ => none
    | .service service => if search.length < l.minLength then none else some service
  | .test _ => none

end Definition

namespace Source

/-- What the definitions of a source have for a text at once. -/
def offerings (s : Source) (standard : Nat) (search : String) : List Offering :=
  s.definitions.filterMap (·.offering? s standard search)

/-- What a source shows for a text. -/
def shown (s : Source) (standard : Nat) (search : String) : List Suggestion :=
  let offerings := s.offerings standard search
  capped (Offering.cap offerings) (firstOfEach (offerings.flatMap (·.kept)))

/-- The first source, with its place in the configuration, comes before the second. -/
def comesFirst (a b : Source × Nat) : Bool :=
  b.1.rank < a.1.rank || (a.1.rank == b.1.rank && a.2 ≤ b.2)

end Source

namespace SearchContext

/-- The text is too short to be searched for. -/
def tooShort (ctx : SearchContext) (search : String) : Prop :=
  search.length = 0 ∨ search.length < ctx.config.startLength

/-- A service of the source has to be asked, and that is shown. -/
def awaits (ctx : SearchContext) (search : String) (s : Source) : Bool :=
  ctx.config.showWhenSearching && s.definitions.any fun d => (d.service? search).isSome

/-- The source has a category for the text. -/
def contributes (ctx : SearchContext) (search : String) (s : Source) : Bool :=
  s.eligible ctx.function &&
    (!(s.offerings ctx.config.itemLimit search).isEmpty || ctx.awaits search s)

/-- The sources that have a category for the text, with their places, in the order in which they
are shown. -/
def contributors (ctx : SearchContext) (search : String) : List (Source × Nat) :=
  (ctx.config.sources.zipIdx.filter fun (s, _) => ctx.contributes search s).mergeSort
    Source.comesFirst

/-- The function names that are offered. -/
def functionNames (ctx : SearchContext) (search : String) : List Suggestion :=
  if ctx.allowFunctions then functionSuggestions search ctx.config.functions else []

/-- The categories that are shown, each with its title. -/
def expectedCategories (ctx : SearchContext) (search : String) :
    List (String × List Suggestion) :=
  let names := ctx.functionNames search
  (if names.isEmpty then [] else [(Category.functionsTitle, firstOfEach names)]) ++
    (ctx.contributors search).map fun (s, _) =>
      (s.title, s.shown ctx.config.itemLimit search)

/-- The requests that are handed out: one for each service that has to be asked. -/
def expectedRequests (ctx : SearchContext) (search : String) (operator : Option Operator)
    (g : Generation) : List LookupRequest :=
  (ctx.config.sources.filter (·.eligible ctx.function)).flatMap fun s =>
    s.definitions.zipIdx.filterMap fun (d, index) =>
      (d.service? search).map fun service =>
        { owner := g.owner
          token := g.current
          source := s.name
          definition := index
          query := ⟨search, operator, ctx.matchers⟩
          delay := ctx.config.delay
          service }

end SearchContext

end QueryBar
