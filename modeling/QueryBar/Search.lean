/-
From what was typed to what is offered.

A search asks every eligible source about a text.  Items that are known and tests answer
at once and go into the buckets; for a service there is only a request, and a placeholder
if the configuration asks for one.  `Buckets.withAnswer?` puts the answer to such a
request into the buckets later.

`offer` does all of it for a typed text outside of any edit box, and `settledOffer` also
waits for the services.  That nothing was found is never an error.
-/
import QueryBar.Buckets.Slots
import QueryBar.Lookup
import QueryBar.Tokens

namespace QueryBar

/-- What a search depends on besides the text. -/
structure SearchContext where
  config : Config
  function : Option QueryFunction := none
  matchers : List Matcher := []
  /-- Function names are offered too. -/
  allowFunctions : Bool := false

/-- What was found at once, and what still has to be asked for. -/
structure Findings where
  buckets : Buckets := []
  pending : List LookupRequest := []

/-- The suggestions that a source makes of the items of a list. -/
def ListLookup.suggestions (l : ListLookup) (s : Source) (items : List Item) :
    List Suggestion :=
  items.map fun item => ⟨s.name, l.valueOf item, l.textOf item⟩

/-- The functions whose names contain the text, whatever the case. -/
def functionSuggestions (search : String) (functions : List QueryFunction) : List Suggestion :=
  (functions.filter fun f => Text.contains true f.name search).map fun f => .ofFunction f.name

namespace SearchContext

/-! ### Asking the sources -/

/-- The request for a list that a service answers. -/
def request (ctx : SearchContext) (search : String) (operator : Option Operator)
    (g : Generation) (s : Source) (index : Nat) (service : Service) : LookupRequest where
  owner := g.owner
  token := g.current
  source := s.name
  definition := index
  query := ⟨search, operator, ctx.matchers⟩
  delay := ctx.config.delay
  service

def askDefinition (ctx : SearchContext) (search : String) (operator : Option Operator)
    (g : Generation) (s : Source) (category : Category) (found : Findings)
    (definition : Definition) (index : Nat) : Findings :=
  match definition with
  | .list l =>
    if search.length < l.minLength then found
    else
      match l.supply with
      | .items items =>
        let accepted := items.filter (l.accepts search)
        if accepted.isEmpty then found
        else
          { found with
            buckets := found.buckets.merge category index (l.suggestions s accepted)
              (some (l.limit ctx.config.itemLimit)) }
      | .service service =>
        { buckets :=
            if ctx.config.showWhenSearching then found.buckets.reserve category
            else found.buckets
          pending := found.pending ++ [ctx.request search operator g s index service] }
  | .test t =>
    if t.accepts search then
      let value := t.derived search
      { found with
        buckets := found.buckets.merge category index [⟨s.name, value, value.display⟩] none }
    else found

/-- Asks all definitions of a source, if the source is eligible. -/
def askSource (ctx : SearchContext) (search : String) (operator : Option Operator)
    (g : Generation) (found : Findings) (s : Source) (position : Nat) : Findings :=
  if s.eligible ctx.function then
    s.definitions.zipIdx.foldl
      (fun found (definition, index) =>
        ctx.askDefinition search operator g s (.ofSource s position) found definition index)
      found
  else found

/-- The function names to offer come before anything else. -/
def functionBuckets (ctx : SearchContext) (search : String) : Buckets :=
  let names := if ctx.allowFunctions then functionSuggestions search ctx.config.functions else []
  if names.isEmpty then [] else Buckets.merge [] .functions 0 names none

/-- Asks every eligible source about a search text that is long enough.  The requests carry the
current count of the generation. -/
def find (ctx : SearchContext) (search : String) (operator : Option Operator)
    (g : Generation) : Findings :=
  if search.length = 0 ∨ search.length < ctx.config.startLength then {}
  else
    ctx.config.sources.zipIdx.foldl
      (fun found (s, position) => ctx.askSource search operator g found s position)
      { buckets := ctx.functionBuckets search }

end SearchContext

/-! ### Answers that come later -/

/-- The buckets with an answer put into them; nothing if that changes nothing.  An empty answer
removes the placeholder that was kept for it. -/
def Buckets.withAnswer? (bs : Buckets) (c : Config) (answer : LookupAnswer) : Option Buckets :=
  match c.sourceAt? answer.source with
  | none => none
  | some (position, s) =>
    match s.definitions[answer.definition]? with
    | some (.list l) =>
      if !answer.items.isEmpty then
        some (bs.merge (.ofSource s position) answer.definition (l.suggestions s answer.items)
          (some (l.limit c.itemLimit)))
      else if c.showWhenSearching then
        let rest := bs.release s.title
        if rest.length = bs.length then none else some rest
      else none
    | _ => none

/-! ### Offers -/

/-- What is offered for a typed text. -/
structure Offer where
  tokens : Tokens
  buckets : Buckets := []
  pending : List LookupRequest := []

namespace SearchContext

/-- What is offered for a typed text without waiting for services. -/
def offer (ctx : SearchContext) (text : String) : Offer :=
  let tokens := Tokens.ofText ctx.config ctx.function text
  if tokens.freeText || tokens.bracket.isSome then { tokens }
  else
    let found := ctx.find tokens.remainder tokens.operator (Generation.fresh 0).advance
    { tokens, buckets := found.buckets, pending := found.pending }

def settledOffer (ctx : SearchContext) (text : String) : Offer :=
  let o := ctx.offer text
  let answers := o.pending.map (·.answered)
  { o with
    buckets := answers.foldl (fun bs a => (bs.withAnswer? ctx.config a).getD bs) o.buckets
    pending := [] }

end SearchContext

end QueryBar
