/-
Requests and the answers to them.

What a search finds depends on the generation in one respect only: its requests carry the
owner and the count of it.  Answers are put into buckets by source and definition, without
regard to either, so the buckets that a batch of answers comes to are the same whatever
generation the requests were made under.
-/
import Mathlib.Data.List.Basic
import QueryBar.Proofs.Search.Asking

namespace QueryBar

namespace LookupRequest

/-- The request as it is made under a generation. -/
def under (r : LookupRequest) (g : Generation) : LookupRequest :=
  { r with owner := g.owner, token := g.current }

/-- An answer to the request, whatever the service is. -/
def answeredBy (items : LookupRequest → List Item) (r : LookupRequest) : LookupAnswer :=
  ⟨r.owner, r.token, r.source, r.definition, items r⟩

theorem answered_eq_answeredBy :
    answered = answeredBy fun r => r.service.answer r.query := rfl

end LookupRequest

namespace SearchContext

variable {ctx : SearchContext} {search : String} {operator : Option Operator} {s : Source}

/-! ### Requests under a generation -/

theorem requestFor_under (g g' : Generation) (d : Definition) (index : Nat) :
    ctx.requestFor search operator g s d index
      = (ctx.requestFor search operator g' s d index).map (·.under g) := by
  unfold requestFor
  rw [Option.map_map]
  rfl

theorem requestsFor_under (g g' : Generation) (s : Source) :
    ctx.requestsFor search operator g s
      = (ctx.requestsFor search operator g' s).map (·.under g) := by
  unfold requestsFor
  split
  · rw [List.map_filterMap]
    refine List.filterMap_congr ?_
    intro p _
    exact requestFor_under g g' p.1 p.2
  · rfl

/-- **Under another generation a search finds the same, and its requests carry that one.** -/
theorem find_under (ctx : SearchContext) (search : String) (operator : Option Operator)
    (g g' : Generation) :
    ctx.find search operator g
      = { buckets := (ctx.find search operator g').buckets
          pending := (ctx.find search operator g').pending.map (·.under g) } := by
  by_cases hshort : ctx.tooShort search
  · rw [find_of_tooShort hshort, find_of_tooShort hshort]
    rfl
  · rw [find_eq hshort, find_eq hshort]
    simp only [List.map_flatMap]
    congr 1
    refine List.flatMap_congr ?_
    intro s _
    exact requestsFor_under g g' s

theorem generation_of_mem_pending {g : Generation} {r : LookupRequest}
    (h : r ∈ (ctx.find search operator g).pending) : r.owner = g.owner ∧ r.token = g.current := by
  rw [find_under ctx search operator g g] at h
  obtain ⟨r', -, rfl⟩ := List.mem_map.mp h
  exact ⟨rfl, rfl⟩

end SearchContext

/-! ### Answers one after the other -/

namespace Buckets

/-- The buckets with all answers of a list put into them. -/
def withAnswers (bs : Buckets) (c : Config) (answers : List LookupAnswer) : Buckets :=
  answers.foldl (fun bs a => (bs.withAnswer? c a).getD bs) bs

theorem withAnswers_nil (bs : Buckets) (c : Config) : bs.withAnswers c [] = bs := rfl

theorem withAnswers_append (bs : Buckets) (c : Config) (answers more : List LookupAnswer) :
    bs.withAnswers c (answers ++ more) = (bs.withAnswers c answers).withAnswers c more :=
  List.foldl_append

/-- Answers are put in without regard to the generation of their requests. -/
theorem withAnswers_under (bs : Buckets) (c : Config) (g : Generation)
    (rs : List LookupRequest) :
    bs.withAnswers c ((rs.map (·.under g)).map (·.answered))
      = bs.withAnswers c (rs.map (·.answered)) := by
  induction rs generalizing bs with
  | nil => rfl
  | cons r rest ih => exact ih ((bs.withAnswer? c r.answered).getD bs)

end Buckets

/-- The buckets once all requests have been answered, in the order in which they were made. -/
def Findings.settled (found : Findings) (c : Config) : Buckets :=
  found.buckets.withAnswers c (found.pending.map (·.answered))

namespace SearchContext

variable {ctx : SearchContext} {text : String}

/-- What a search shows once its services have answered does not depend on the generation. -/
theorem settled_find (ctx : SearchContext) (search : String) (operator : Option Operator)
    (g g' : Generation) (c : Config) :
    (ctx.find search operator g).settled c = (ctx.find search operator g').settled c := by
  rw [find_under ctx search operator g g']
  exact Buckets.withAnswers_under _ c g _

/-! ### Offers -/

theorem tokens_settledOffer (ctx : SearchContext) (text : String) :
    (ctx.settledOffer text).tokens = Tokens.ofText ctx.config ctx.function text := by
  show (ctx.offer text).tokens = _
  unfold offer
  dsimp only
  split <;> rfl

theorem settledOffer_of_aside
    (h : ((Tokens.ofText ctx.config ctx.function text).freeText
      || (Tokens.ofText ctx.config ctx.function text).bracket.isSome) = true) :
    (ctx.settledOffer text).buckets = [] := by
  have hoffer : ctx.offer text = { tokens := Tokens.ofText ctx.config ctx.function text } :=
    if_pos h
  unfold settledOffer
  rw [hoffer]
  rfl

/-- Of any other text the remainder is searched for. -/
theorem settledOffer_of_searched
    (h : ((Tokens.ofText ctx.config ctx.function text).freeText
      || (Tokens.ofText ctx.config ctx.function text).bracket.isSome) = false) :
    (ctx.settledOffer text).buckets
      = (ctx.find (Tokens.ofText ctx.config ctx.function text).remainder
          (Tokens.ofText ctx.config ctx.function text).operator
          (Generation.fresh 0).advance).settled ctx.config := by
  unfold settledOffer offer
  dsimp only
  rw [if_neg (by rw [h]; exact Bool.false_ne_true)]
  generalize ctx.find _ _ _ = found
  rfl

end SearchContext

end QueryBar
