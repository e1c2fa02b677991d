/-
The bar's answers over HTTP.

Four paths are served: suggestions for a text, the check of a candidate, the brackets
without a partner, and the sources.  The first three take JSON.  A request is turned down
for the first reason that applies: no such path, another method, another media type, a
body that is too long or is not JSON, JSON of another shape.  A body is read from the
front, so of two faults the one that comes first counts, and what follows a complete value
is not read.

Any origin may ask, so a preflight request is answered on every path.
-/
import QueryBar.Http.Body
import QueryBar.Http.MediaType
import QueryBar.Http.Target
import QueryBar.Row.Brackets
import QueryBar.Row.Objection
import QueryBar.Search

namespace QueryBar.Http

open Json

/-- A request. -/
structure Request where
  method : String
  /-- The path, with a query if there is one, or a whole address. -/
  target : String
  contentType : Option String
  body : String

/-- A response.  Where the reason for turning a request down is not worded here, there is no
body. -/
structure Response where
  status : Nat
  body : Option String
  deriving DecidableEq

namespace Response

def ok (j : Json) : Response := ⟨200, some j.compact⟩

def refused (status : Nat) : Response := ⟨status, none⟩

/-- The refusal of a body. -/
def ofFault : Fault → Response
  | .malformed => refused 400
  | .mismatch => refused 422

end Response

/-! ### Suggestions -/

def tokensJson (t : Tokens) : Json :=
  .object [("operator", .optional (fun o => .string o.name) t.operator),
    ("comparison", .optional .string t.comparison),
    ("bracket", .optional (fun b => .string b.symbol) t.bracket),
    ("remainder", .string t.remainder), ("free_text", .bool t.freeText)]

def suggestionJson (s : Suggestion) : Json :=
  .object [("source", .string s.source), ("value", s.value.toJson), ("text", .string s.text)]

def bucketJson (b : Bucket) : Json :=
  .object [("title", .string b.title), ("options", .array (b.options.map suggestionJson))]

def offerJson (o : Offer) : Json :=
  .object [("tokens", tokensJson o.tokens), ("buckets", .array (o.buckets.map bucketJson)),
    ("total", .nat (Buckets.total o.buckets))]

/-- Answers a request for suggestions; the function it names has to exist. -/
def offer (c : Config) (r : OfferRequest) : Response :=
  let offered (f : Option QueryFunction) : Response :=
    let ctx : SearchContext :=
      { config := c, function := f, matchers := r.matchers, allowFunctions := r.allowFunctions }
    .ok (offerJson (ctx.settledOffer r.text))
  match r.function with
  | none => offered none
  | some name =>
    match c.function? name with
    | some f => offered (some f)
    | none => ⟨400, some ("unknown function '" ++ name ++ "'")⟩

/-! ### Checks -/

/-- Answers with the objection to a candidate, if there is one. -/
def check (c : Config) (r : CheckRequest) : Response :=
  .ok (.object
    [("error", .optional .string (Row.objection? c r.candidate r.matchers r.activeIndex))])

/-- Answers with the places of the brackets that have no partner. -/
def brackets (comparisons : List String) : Response :=
  .ok (.object [("unbalanced", .array ((Row.unbalanced comparisons).map .nat))])

/-! ### Sources -/

def sourceJson (s : Source) : Json :=
  .object [("name", .string s.name), ("title", .string s.title),
    ("comparisons", .array (s.comparisons.map .string)),
    ("selection_limit", .optional .nat s.selectionLimit)]

/-- Answers with all sources. -/
def sources (c : Config) : Response := .ok (.array (c.sources.map sourceJson))

/-! ### Paths -/

/-- How many bytes a body may have. -/
def bodyLimit : Nat := 2097152

/-- Reads the body of a request and answers it. -/
def withBody {α : Type} (r : Request) (read : Draft → Except Fault α) (answer : α → Response) :
    Response :=
  if !r.contentType.any isJsonType then .refused 415
  else if bodyLimit < r.body.utf8ByteSize then .refused 413
  else
    match read (Draft.ofLexemes (Lexeme.scan r.body.toList)).1 with
    | .ok a => answer a
    | .error fault => .ofFault fault

/-- What is served on a path, for each method it is served for. -/
inductive Endpoint
  | offer
  | check
  | brackets
  | sources

def Endpoint.ofPath? (path : String) : Option Endpoint :=
  if path = "/v1/suggest" then some .offer
  else if path = "/v1/validate" then some .check
  else if path = "/v1/brackets" then some .brackets
  else if path = "/v1/sources" then some .sources
  else none

def Endpoint.answer (c : Config) (r : Request) : Endpoint → Response
  | .offer =>
    if r.method = "POST" then withBody r OfferRequest.ofDraft (Http.offer c) else .refused 405
  | .check =>
    if r.method = "POST" then withBody r CheckRequest.ofDraft (Http.check c)
    else .refused 405
  | .brackets =>
    if r.method = "POST" then withBody r comparisonsOfDraft Http.brackets else .refused 405
  | .sources =>
    if r.method = "GET" then Http.sources c
    else if r.method = "HEAD" then { Http.sources c with body := some "" }
    else .refused 405

def answer (c : Config) (r : Request) : Response :=
  if r.method = "OPTIONS" then ⟨200, some ""⟩
  else
    match Endpoint.ofPath? (pathOf r.target) with
    | some endpoint => endpoint.answer c r
    | none => .refused 404

end QueryBar.Http
