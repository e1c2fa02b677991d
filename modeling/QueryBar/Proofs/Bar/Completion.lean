/-
The row is handed out whole, or it is said what is missing.

A row can be handed out unless a function is active that still requires a source or whose own
check objects.  What is refused leaves everything as it was, and the sources that are missing are
named in the order in which the function requires them.

What is left of a bar whose row has been handed out does not depend on which box was open, on
what was in it or on what was under way for it (`Emptied`): the edit is closed and the box emptied
before the place is told anew, and the count goes up, so that no request made before counts.

All of this is so of every bar, however it came to be.  What a request carries is at most the
count of the bar ever after, no matter which answers have been taken in between (`Issued`).
-/
import QueryBar.Proofs.Bar.Derived
import QueryBar.Proofs.Bar.Eligibility
import QueryBar.Proofs.Bar.Failures
import QueryBar.Proofs.Bar.Staleness

namespace QueryBar

/-! ### Reasons -/

namespace Row

variable {f : QueryFunction} {row : List Matcher} {r : Refusal}

/-- The sources that are missing are the required ones that no matcher names, in the order in which
they are required. -/
theorem missingSources_eq (f : QueryFunction) (row : List Matcher) :
    missingSources f row = f.required.filter fun name => ∀ m ∈ row, m.source ≠ name := by
  unfold missingSources
  refine List.filter_congr fun name _ => ?_
  rw [List.not_any_eq_all_not, Bool.eq_iff_iff, List.all_eq_true, decide_eq_true_iff]
  simp

/-- A refusal is about the function and names all sources that are missing.  It is the function's
own check that objects where there are none. -/
theorem of_refusal?_eq_some (h : refusal? f row = some r) :
    r.function = f.name ∧ r.missing = missingSources f row ∧
      (r.missing = [] → ∃ message, f.objection? row = some message ∧
        r.cause = .objection message) := by
  unfold refusal? at h
  dsimp only at h
  split at h
  · rename_i hnone
    obtain ⟨message, hobjects, rfl⟩ := Option.map_eq_some_iff.mp h
    exact ⟨rfl, (List.isEmpty_iff.mp hnone).symm, fun _ => ⟨message, hobjects, rfl⟩⟩
  · rename_i hsome
    obtain rfl := Option.some.inj h
    exact ⟨rfl, rfl, fun hnil => absurd (List.isEmpty_iff.mpr hnil) hsome⟩

end Row

/-! ### Afterwards -/

/-- The trailing box with nothing in it. -/
structure EditBox.Blank (e : EditBox) : Prop where
  matcher : e.matcher = none
  text : e.text = ""
  operator : e.operator = none
  comparison : e.comparison = none
  matchText : e.matchText = none
  buckets : e.buckets = []
  highlighted : e.highlighted = none

theorem EditBox.blank_reset {e : EditBox} (h : e.matcher = none) : e.reset.Blank :=
  ⟨h, rfl, rfl, rfl, rfl, rfl, rfl⟩

namespace Bar

variable {b : Bar} {r : LookupRequest} {text : String} {operation : Operation}

/-- There is nothing in the row nor in the open box, and all that can come first is on offer. -/
structure Emptied (b : Bar) : Prop where
  row : b.matchers = []
  function : b.function = none
  active : b.active = none
  unbalanced : b.unbalanced = []
  hasFocus : b.hasFocus = false
  blank : b.box.Blank
  first : b.box.first = true
  offersFunctions : b.box.allowFunctions = true

theorem blank_placeBox (h : b.box.Blank) : b.placeBox.box.Blank := by
  unfold placeBox
  split <;>
    exact ⟨h.matcher, h.text, h.operator, h.comparison, h.matchText, h.buckets, h.highlighted⟩

/-- A bar without a row whose box is blank is empty once all has been worked out anew. -/
theorem emptied_rowChanged (hrow : b.matchers = []) (hfunction : b.function = none)
    (hactive : b.active = none) (hfocus : b.hasFocus = false) (hblank : b.box.Blank) :
    b.rowChanged.Emptied := by
  have habreast := abreast_rowChanged b
  have hrow' : b.rowChanged.matchers = [] := hrow
  have hactive' : b.rowChanged.active = none := hactive
  have hfunction' : b.rowChanged.function = none := hfunction
  have hoffers : b.rowChanged.box.allowFunctions =
      (b.rowChanged.active.isNone && b.rowChanged.offersFunctions) :=
    offers_placeBox b.flagBrackets
  refine ⟨hrow', hfunction', hactive', ?_, hfocus, blank_placeBox (b := b.flagBrackets) hblank,
    ?_, ?_⟩
  · rw [habreast.unbalanced, hrow']
    rfl
  · rw [habreast.first]
    unfold startsGroup
    rw [hactive', hrow']
    rfl
  · rw [hoffers]
    unfold offersFunctions
    rw [hactive', hrow', hfunction']
    rfl

/-- **Whatever was open and under way, nothing is left of it.** -/
theorem emptied_complete (h : (b.function.bind fun f => Row.refusal? f b.matchers) = none) :
    b.complete.1.Emptied := by
  unfold complete
  rw [h]
  dsimp only
  generalize hleft : ({ b with matchers := [], function := none, hasFocus := false } : Bar) = left
  have hclosed := closed_openTrailing left
  have hrow : left.openTrailing.matchers = [] := by rw [openTrailing, matchers_openAt, ← hleft]
  have hfunction : left.openTrailing.function = none := by
    rw [openTrailing, (carries_openAt left none).function, ← hleft]
  have hfocus : left.openTrailing.hasFocus = false := by
    rw [openTrailing, hasFocus_openAt, ← hleft]
  exact emptied_rowChanged hrow hfunction hclosed.active hfocus (EditBox.blank_reset hclosed.held)

/-! ### Requests made before -/

/-- The request was handed out on the way to the bar.  Anything may have happened before and since:
answers that nobody asked for have been taken, and the bar has been set up further. -/
inductive Issued (r : LookupRequest) : Bar → Prop
  | now (b : Bar) (operation : Operation) (h : r ∈ (b.perform operation).2.handedOut) :
      Issued r (b.perform operation).1
  | later {b : Bar} (h : Issued r b) (operation : Operation) : Issued r (b.perform operation).1
  | equip {b b' : Bar} (h : Issued r b) (hb : Watch.Equips b b') : Issued r b'

/-- What a watched bar has handed out was handed out on the way to it. -/
theorem issued_of_mem_handedOut {w : Watch} (h : Watch.Reachable w) (hr : r ∈ w.handedOut) :
    Issued r w.bar := by
  induction h with
  | start config owner => exact absurd hr List.not_mem_nil
  | equip _ hequips ih => exact .equip (ih hr) hequips
  | step _ operation _ ih =>
      rw [Watch.handedOut_step] at hr
      rw [Watch.bar_step]
      rcases List.mem_append.mp hr with hold | hnew
      · exact .later (ih hold) operation
      · exact .now _ operation hnew

theorem token_of_mem_input (h : r ∈ (b.input text).2) :
    r.token = (b.input text).1.generation.current := by
  cases hq : b.inquiry? text with
  | none =>
      rw [(input_of_no_inquiry hq).1] at h
      exact absurd h List.not_mem_nil
  | some q =>
      obtain ⟨hrequests, hshown⟩ := input_of_inquiry hq
      have hgeneration : (b.input text).1.generation = q.generation := hshown.generation
      rw [hrequests] at h
      rw [hgeneration]
      exact (SearchContext.generation_of_mem_pending h).2

/-- A request carries the count that the bar has once it has been handed out. -/
theorem token_of_mem_perform (h : r ∈ (b.perform operation).2.handedOut) :
    r.token = (b.perform operation).1.generation.current := by
  cases operation with
  | input text => exact token_of_mem_input h
  | compose operator comparison => exact token_of_mem_input h
  | insertBefore m anchor =>
      unfold perform at h
      dsimp only at h
      split at h <;> exact absurd h List.not_mem_nil
  | _ => exact absurd h List.not_mem_nil

/-- The count of a bar only goes up. -/
theorem current_le_perform (b : Bar) (operation : Operation) :
    b.generation.current ≤ (b.perform operation).1.generation.current := by
  have hstep := ((Watch.on b).generation_step operation).2
  rwa [Watch.bar_step] at hstep

/-- **No request carries a higher token than the count of the bar**, whatever has happened. -/
theorem Issued.token_le (h : Issued r b) : r.token ≤ b.generation.current := by
  induction h with
  | now b operation hr => exact Nat.le_of_eq (token_of_mem_perform hr)
  | later _ operation ih => exact Nat.le_trans ih (current_le_perform _ operation)
  | equip _ hequips ih => exact Nat.le_trans ih (Watch.follows_equips hequips).box.current_le

/-- Once the row has been handed out, no request that was made before counts. -/
theorem Issued.isStale_complete (h : Issued r b)
    (hcomplete : (b.function.bind fun f => Row.refusal? f b.matchers) = none) :
    r.isStale b.complete.1.generation = true := by
  have htoken := h.token_le
  have hlater : b.generation.current < b.complete.1.generation.current :=
    (closes_complete hcomplete).later
  unfold LookupRequest.isStale
  exact bne_iff_ne.mpr (by omega)

/-- An answer to such a request is turned away, whatever it says. -/
theorem Issued.takeAnswer_complete {a : LookupAnswer} (h : Issued r b)
    (hcomplete : (b.function.bind fun f => Row.refusal? f b.matchers) = none) (ha : a.Answers r) :
    b.complete.1.takeAnswer a = (b.complete.1, false) := by
  refine takeAnswer_of_stale fun hnow => ?_
  obtain ⟨-, htoken, -, -⟩ := ha
  exact bne_iff_ne.mp (h.isStale_complete hcomplete) (hnow.2.symm.trans htoken)

/-! ### The row -/

/-- What is not refused is the row as it was, and the name of the function. -/
theorem complete_of_no_refusal
    (h : (b.function.bind fun f => Row.refusal? f b.matchers) = none) :
    b.complete.2 = .ok ⟨b.matchers, b.function.map (·.name)⟩ := by
  unfold complete
  rw [h]

/-- A refusal gives the reasons of the function that is active. -/
theorem of_refused {refusal : Refusal}
    (h : (b.function.bind fun f => Row.refusal? f b.matchers) = some refusal) :
    ∃ f, b.function = some f ∧ refusal.function = f.name ∧
      refusal.missing = (f.required.filter fun name => ∀ m ∈ b.matchers, m.source ≠ name) ∧
      (refusal.missing = [] → ∃ message, f.objection? b.matchers = some message ∧
        refusal.cause = .objection message) := by
  obtain ⟨f, hf, hrefusal⟩ := Option.bind_eq_some_iff.mp h
  obtain ⟨hname, hmissing, hobjects⟩ := Row.of_refusal?_eq_some hrefusal
  exact ⟨f, hf, hname, hmissing.trans (Row.missingSources_eq f b.matchers), hobjects⟩

/-- **The row is handed out whole, or it is said what is missing.**  It is handed out exactly if no
function is active, or all sources that the function requires are named and its own check does not
object.  Nothing is left of it in the bar then, and no answer to a request made before changes
anything.  Otherwise the bar stays as it was, and the refusal names the required sources that are
missing, in their order, or passes on the objection if there is none of these. -/
theorem row_handed_out_or_refused (b : Bar) :
    let after := b.complete.1
    ((∃ done, b.complete.2 = .ok done) ↔ ∀ f, b.function = some f →
      (∀ name ∈ f.required, ∃ m ∈ b.matchers, m.source = name) ∧
        f.objection? b.matchers = none) ∧
    (∀ done, b.complete.2 = .ok done →
      done = ⟨b.matchers, b.function.map (·.name)⟩ ∧ after.Emptied ∧
        ∀ r, Issued r b → r.isStale after.generation = true ∧
          ∀ a, a.Answers r → after.takeAnswer a = (after, false)) ∧
    ∀ r, b.complete.2 = .error r →
      after = b ∧ ∃ f, b.function = some f ∧ r.function = f.name ∧
        r.missing = (f.required.filter fun name => ∀ m ∈ b.matchers, m.source ≠ name) ∧
        (r.missing = [] → ∃ message, f.objection? b.matchers = some message ∧
          r.cause = .objection message) := by
  intro after
  have hneeds := needs_complete_iff (b := b)
  cases hrefusal : b.function.bind fun f => Row.refusal? f b.matchers with
  | none =>
      have hdone := complete_of_no_refusal hrefusal
      refine ⟨iff_of_true ⟨_, hdone⟩ (hneeds.mpr hrefusal), ?_, ?_⟩
      · intro done hdone'
        refine ⟨(Except.ok.inj (hdone.symm.trans hdone')).symm, emptied_complete hrefusal, ?_⟩
        intro r hr
        exact ⟨hr.isStale_complete hrefusal, fun a ha => hr.takeAnswer_complete hrefusal ha⟩
      · intro r hfails
        rw [hdone] at hfails
        contradiction
  | some refusal =>
      have hcomplete := complete_of_refusal hrefusal
      refine ⟨iff_of_false ?_ ?_, ?_, ?_⟩
      · rintro ⟨done, hdone⟩
        rw [hcomplete] at hdone
        contradiction
      · intro hall
        rw [hneeds.mp hall] at hrefusal
        contradiction
      · intro done hdone
        rw [hcomplete] at hdone
        contradiction
      · intro r hfails
        rw [hcomplete] at hfails
        obtain rfl := Except.error.inj hfails
        exact ⟨congrArg Prod.fst hcomplete, of_refused hrefusal⟩

/-- A trade without a side is refused.  Once there is one, it is handed out.  Where shades are still
being looked up, the request for them is stale once the row has been handed out. -/
theorem row_handed_out_or_refused_trading :
    let sideless := Watch.trading.bar
    let sided := (Watch.trading.step (.choose 0 false)).bar
    let waiting := Watch.retyped.bar
    let request := Watch.shadeRequest 2 "red"
    (∃ r, sideless.complete.2 = .error r ∧ r.missing = ["side"]) ∧
      (∃ done, sided.complete.2 = .ok done ∧ done.matchers.map (·.text) = ["buy"] ∧
        done.function = some "Trade" ∧ sided.complete.1.Emptied) ∧
      request.isStale waiting.generation = false ∧
      request.isStale waiting.complete.1.generation = true := by
  intro sideless sided waiting request
  obtain ⟨-, -, hrefused⟩ := row_handed_out_or_refused sideless
  obtain ⟨-, hdone, -⟩ := row_handed_out_or_refused sided
  obtain ⟨hverdict, hwaiting, -⟩ := row_handed_out_or_refused waiting
  refine ⟨?_, ?_, rfl, ?_⟩
  · cases hcomplete : sideless.complete.2 with
    | ok done =>
        have hfails : (sideless.perform .complete).2.isFailure = true := by decide +kernel
        have hreply : (sideless.perform .complete).2 = .completion sideless.complete.2 := rfl
        rw [hreply, hcomplete] at hfails
        contradiction
    | error r =>
        obtain ⟨-, f, hf, -, hmissing, -⟩ := hrefused r hcomplete
        have hrow : sideless.matchers = [] := by decide +kernel
        have hrequired : sideless.function.map (·.required) = some ["side"] := by decide +kernel
        rw [hf, Option.map_some] at hrequired
        rw [hrow, Option.some.inj hrequired] at hmissing
        exact ⟨r, rfl, hmissing⟩
  · cases hcomplete : sided.complete.2 with
    | ok done =>
        obtain ⟨rfl, hemptied, -⟩ := hdone done hcomplete
        exact ⟨_, rfl, by decide +kernel, by decide +kernel, hemptied⟩
    | error r =>
        have hsucceeds : (sided.perform .complete).2.isFailure = false := by decide +kernel
        have hreply : (sided.perform .complete).2 = .completion sided.complete.2 := rfl
        rw [hreply, hcomplete] at hsucceeds
        contradiction
  · -- No function is active, so that the row is handed out.
    have hfunction : waiting.function = none := rfl
    obtain ⟨done, hcomplete⟩ := hverdict.mpr fun f hf => by simp [hfunction] at hf
    obtain ⟨-, -, hstale⟩ := hwaiting done hcomplete
    have hhanded : Watch.retyped.handedOut = [Watch.shadeRequest 1 "re", request] := rfl
    exact (hstale request (issued_of_mem_handedOut Watch.reachable_retyped (by rw [hhanded]; simp))).1

end Bar

end QueryBar
