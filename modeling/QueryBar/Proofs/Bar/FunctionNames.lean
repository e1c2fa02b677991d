/-
When names of functions are offered.

The offer of function names is made when a text is typed, and only where there is neither a
matcher nor a function.  It is open as long as the search is.  A choice ends the search, so that
the offer goes with it, with one exception: a choice that is put in before the edited matcher,
or at the end where none is edited, leaves the box as it is.  The names are then still offered
beside a matcher, and one of them can be chosen.

Nothing else that can be done in the box leaves the offer open and brings a matcher or a function
in; answers that come later add no names.
-/
import QueryBar.Proofs.Bar.Eligibility
import QueryBar.Proofs.Bar.Legality

namespace QueryBar

/-- The matcher that goes into the row while the search stays open. -/
def Notice.inserted? : Notice → Option Matcher
  | .insert m => some m
  | _ => none

namespace Bar

variable {b b' : Bar} {operation : Operation} {turn : Turn Reaction} {asked : Bool}

/-- The name of a function is offered. -/
def OffersFunction (b : Bar) : Prop := ∃ o, b.box.buckets.Shows o ∧ o.isFunction = true

instance (b : Bar) : Decidable b.OffersFunction :=
  decidable_of_iff (∃ bucket ∈ b.box.buckets, ∃ o ∈ bucket.options, o.isFunction = true) <| by
    constructor
    · rintro ⟨bucket, hbucket, o, ho, hfunction⟩
      exact ⟨o, ⟨bucket, hbucket, ho⟩, hfunction⟩
    · rintro ⟨o, ⟨bucket, hbucket, ho⟩, hfunction⟩
      exact ⟨bucket, hbucket, o, ho, hfunction⟩

/-- Nothing has been entered: there is neither a matcher nor a function. -/
structure Unentered (b : Bar) : Prop where
  row : b.matchers = []
  function : b.function = none

/-- The open box wishes a matcher into the row without giving up its search. -/
def Inserts (b : Bar) (operation : Operation) : Prop := ∃ m, .insert m ∈ b.notices operation

instance (b : Bar) (operation : Operation) : Decidable (b.Inserts operation) :=
  decidable_of_iff (∃ n ∈ b.notices operation, n.inserted?.isSome = true) <| by
    constructor
    · rintro ⟨n, hn, hsome⟩
      cases n with
      | insert m => exact ⟨m, hn⟩
      | _ => contradiction
    · rintro ⟨m, hn⟩
      exact ⟨_, hn, rfl⟩

theorem closed_of_empty (h : b.InStep) (hempty : b.matchers = []) : b.Closed := by
  rcases h with hclosed | ⟨i, m, -, hplaced, -⟩
  · exact hclosed
  · rw [hempty] at hplaced
    contradiction

theorem not_precedes_of_closed (h : b.Closed) (bracket : Bracket) :
    b.box.precedes bracket = false := by
  unfold EditBox.precedes
  rw [h.held]
  rfl

theorem offersFunction_of_keeps (h : b.box.Keeps b'.box) :
    b'.OffersFunction ↔ b.OffersFunction := by
  unfold OffersFunction
  rw [h.buckets]

theorem not_offersFunction_of_closes (h : b.box.Closes b'.box) : ¬ b'.OffersFunction := by
  rintro ⟨o, ⟨bucket, hbucket, -⟩, -⟩
  rw [h.buckets] at hbucket
  contradiction

/-- What leaves the names on offer has not ended the search. -/
theorem Follows.keeps_of_offers (h : b.Follows b') (hoffers : b'.OffersFunction) :
    b.box.Keeps b'.box :=
  h.box.resolve_right fun hcloses => not_offersFunction_of_closes hcloses hoffers

/-! ### Choices and keys -/

/-- A turn that leaves the search open may put a matcher in, but confirms none and sets no
function. -/
theorem of_mem_notices_of_keeps {n : Notice}
    (h : b.box.Course b.surroundings b.keys asked turn) (hkeeps : b.box.Keeps turn.box)
    (hn : n ∈ turn.notices) :
    (∃ m, n = .insert m) ∨ n.incoming? = none ∧ n.functionAfter none = none := by
  have hopen : ¬ b.box.reset.Resembles turn.box := by
    intro hreset
    have hcloses := (EditBox.closes_reset b.box).trans_follows (Or.inl hreset.toKeeps)
    have hlater := hcloses.later
    rw [hkeeps.generation] at hlater
    exact Nat.lt_irrefl _ hlater
  cases h with
  | quiet _ | refused _ => contradiction
  | emptied hbox | cleared hbox | function hbox _ _ _ | committed hbox _ _ _ | captured hbox _ =>
      exact absurd hbox hopen
  | turned _ hturns _ =>
      obtain rfl := List.mem_singleton.mp hn
      refine Or.inr ?_
      cases n with
      | changed m => exact hturns.elim
      | insert m => exact hturns.elim
      | setFunction f => exact hturns.elim
      | _ => exact ⟨rfl, rfl⟩
  | objected _ =>
      obtain rfl := List.mem_singleton.mp hn
      exact Or.inr ⟨rfl, rfl⟩
  | inserted _ _ _ _ =>
      rcases List.mem_cons.mp hn with rfl | hn
      · exact Or.inr ⟨rfl, rfl⟩
      · exact Or.inl ⟨_, List.mem_singleton.mp hn⟩
  | bracketed _ _ _ => exact Or.inl ⟨_, List.mem_singleton.mp hn⟩

/-- Where nothing has been entered, a turn that leaves the names on offer enters nothing unless it
puts a matcher in. -/
theorem unentered_takeTurn (h : b.box.Course b.surroundings b.keys asked turn)
    (hnothing : b.Unentered) (hoffers : (b.takeTurn turn).1.OffersFunction)
    (hinsert : ∀ m, .insert m ∉ turn.notices) : (b.takeTurn turn).1.Unentered := by
  have hkeeps : b.box.Keeps turn.box := by
    refine h.follows.resolve_right fun hcloses => ?_
    exact not_offersFunction_of_closes
      (hcloses.trans_follows (follows_takeTurn b turn).box) hoffers
  have hplain : ∀ n ∈ turn.notices, n.incoming? = none ∧ n.functionAfter none = none := by
    intro n hn
    refine (of_mem_notices_of_keeps h hkeeps hn).resolve_left ?_
    rintro ⟨m, rfl⟩
    exact hinsert m hn
  constructor
  · refine List.eq_nil_iff_forall_not_mem.mpr fun m hm => ?_
    rcases mem_takeTurn hm with hold | ⟨n, hn, hcame⟩
    · rw [hnothing.row] at hold
      contradiction
    · rw [(hplain n hn).1] at hcame
      contradiction
  · rw [(carries_takeTurn turn h.allowFunctions h.legible).function, hnothing.function]
    exact foldl_functionAfter fun n hn => (hplain n hn).2

/-- Neither do the keys of the bar. -/
theorem unentered_command (h : b.Unentered) (p : KeyPress) : (b.command p).1.Unentered := by
  constructor
  · refine List.eq_nil_iff_forall_not_mem.mpr fun m hm => ?_
    have hold := (rearranges_command b p).mem hm
    rw [h.row] at hold
    contradiction
  · obtain ⟨f, hcarries, -, hfunction | hnone⟩ := carries_command b p
    · exact hcarries.function.trans (hfunction.trans h.function)
    · exact hcarries.function.trans hnone

/-- A matcher that is put in where nothing is edited leaves the search as it was. -/
theorem keeps_of_insert {m : Matcher} (h : b.box.Course b.surroundings b.keys asked turn)
    (hclosed : b.Closed) (hinsert : .insert m ∈ turn.notices) :
    b.box.Keeps (b.takeTurn turn).1.box ∧ (b.takeTurn turn).1.matchers ≠ [] := by
  cases h with
  | @inserted e' choice hbox _ _ _ =>
      unfold takeTurn
      dsimp only
      rw [hbox.matcher, hclosed.held]
      generalize b.box.become b.surroundings.config b.keys choice true = n
      generalize (b.box.takeKey true b.keys).2 = keys
      show b.box.Keeps (add { b with box := e', keys } n).box ∧
        (add { b with box := e', keys } n).matchers ≠ []
      have hadded := keeps_placeBox
        (flagBrackets { b with box := e', keys, matchers := b.matchers ++ [n] })
      refine ⟨hbox.toKeeps.trans hadded, ?_⟩
      rw [(change_add _ n).row]
      exact List.append_ne_nil_of_right_ne_nil _ (List.cons_ne_nil _ _)
  | bracketed _ hother _ =>
      rw [not_precedes_of_closed hclosed] at hother
      contradiction
  | turned _ hturns _ =>
      obtain rfl := List.mem_singleton.mp hinsert
      exact hturns.elim
  | _ => simp at hinsert

/-- A turn makes a function active only if the name of one is offered, and leaves the row as it
is. -/
theorem of_function_takeTurn {f : QueryFunction}
    (h : b.box.Course b.surroundings b.keys asked turn)
    (hactive : (b.takeTurn turn).1.function = some f) (hnew : b.function ≠ some f) :
    b.OffersFunction ∧ (b.takeTurn turn).1.matchers = b.matchers := by
  have hcarries := (carries_takeTurn turn h.allowFunctions h.legible).function
  cases h with
  | function hbox hoption hfunction _ =>
      exact ⟨⟨_, Buckets.shows_of_get? hoption, hfunction⟩, (alike_useFunction _ _).row⟩
  | @turned _ n _ _ hn _ =>
      cases n with
      | deleteFunction =>
          rw [hactive] at hcarries
          contradiction
      | setFunction f => exact hn.elim
      | _ => exact absurd (hcarries.symm.trans hactive) hnew
  | _ => exact absurd (hcarries.symm.trans hactive) hnew

/-- **A function becomes active only when one is offered**, and the row is then as it was. -/
theorem of_function_perform {f : QueryFunction} (hbox : operation.isOfBox = true)
    (hactive : (b.perform operation).1.function = some f) (hnew : b.function ≠ some f) :
    b.OffersFunction ∧ (b.perform operation).1.matchers = b.matchers := by
  have hsame : (b.perform operation).1.function ≠ b.function := by
    rw [hactive]
    exact hnew.symm
  cases operation with
  | input text => exact absurd (carries_input b text).function hsame
  | compose operator comparison => exact absurd (carries_input b _).function hsame
  | takeAnswer a => exact absurd (carries_takeAnswer b a).function hsame
  | highlight slot => exact absurd rfl hsame
  | choose slot insert =>
      have hcourse := b.box.course_select b.surroundings b.keys slot insert
      exact of_function_takeTurn hcourse hactive hnew
  | key press =>
      rcases b.key_cases press with ⟨-, hkey⟩ | ⟨-, -, hkey⟩
      · have hperform : (b.perform (.key press)).1 = _ := hkey
        rw [hperform] at hactive ⊢
        exact of_function_takeTurn (b.box.course_key b.surroundings b.keys press) hactive hnew
      · have hperform : (b.perform (.key press)).1 = _ := hkey
        rw [hperform] at hactive
        obtain ⟨g, hcarries, -, hg | hg⟩ := carries_command _ press
        · exact absurd (hg.symm.trans (hcarries.function.symm.trans hactive)) hnew
        · rw [hcarries.function, hg] at hactive
          contradiction
  | _ => contradiction

/-- A text puts nothing in where nothing is edited. -/
theorem not_inserts_text (h : b.Closed) (text : String) (m : Matcher) :
    .insert m ∉ (b.box.typeText b.surroundings b.keys text).notices := by
  intro hn
  cases hbracket : (Tokens.ofText b.config b.function text).bracket with
  | none =>
      obtain ⟨-, -, hnotices⟩ :=
        EditBox.typeText_of_no_bracket b.box b.surroundings b.keys hbracket
      exact Notice.noConfusion (hnotices _ hn)
  | some bracket =>
      obtain ⟨typed, asides, hbox, -, hasides, -, -, hnotices⟩ :=
        EditBox.typeText_of_bracket b.box b.surroundings b.keys hbracket
      rw [hnotices] at hn
      rcases List.mem_append.mp hn with haside | htold
      · exact Notice.noConfusion (hasides _ haside)
      · rcases EditBox.of_mem_notices_takeBracket _ _ _ htold with ⟨hprecedes, -⟩ | ⟨m', h' | h'⟩
        · unfold EditBox.precedes at hprecedes
          rw [hbox.matcher, h.held] at hprecedes
          contradiction
        · exact Notice.noConfusion h'
        · exact Notice.noConfusion h'

end Bar

namespace Watch

open Bar

variable {w : Watch} {operation : Operation} {history : List Operation}

/-- A bar that started empty and has only been used through its box, and in which the name that
suggestions of functions carry is not that of a source. -/
structure Started (w : Watch) : Prop where
  reachable : Reachable w
  homegrown : w.bar.Homegrown
  reserved : w.bar.config.ReservesFunctionSource

theorem reachable_on {b : Bar} (h : b.Built) : Reachable (on b) := by
  induction h with
  | new config owner => exact .start config owner
  | equip _ hequips ih => exact .equip ih hequips

theorem started_on {b : Bar} (hbuilt : b.Built) (hempty : b.matchers = [])
    (hreserved : b.config.ReservesFunctionSource) : (on b).Started :=
  ⟨reachable_on hbuilt, .built hbuilt hempty, hreserved⟩

theorem Started.step (h : w.Started) (hbox : operation.isOfBox = true)
    (hadmits : w.Admits operation) : (w.step operation).Started := by
  have hown : operation.handsOver = false := by cases operation <;> trivial
  have hgrown := h.homegrown.step operation hown
  obtain ⟨e, heffect⟩ := exists_effect w.bar operation
  have hreserved := h.reserved
  rw [← heffect.config] at hreserved
  rw [← bar_step] at hgrown hreserved
  exact ⟨h.reachable.step operation hadmits, hgrown, hreserved⟩

/-- Names of functions are offered only where nothing has been entered. -/
def Timely (w : Watch) : Prop := w.bar.OffersFunction → w.bar.Unentered

/-- A text is searched for function names only where nothing has been entered. -/
theorem Started.timely_typed (h : w.Started) (text : String) : (w.typed text).Timely := by
  rintro ⟨o, ho, hfunction⟩
  have hsound := (sound_reachable h.reachable).typed text
  obtain ⟨q, hq, hconfig, hoffers⟩ := hsound.offers ho
  have hasked := inquiry?_of_typed hq
  obtain ⟨-, -, hfor⟩ := of_inquiry?_eq_some hasked
  have hallowed : w.bar.box.allowFunctions = true := by
    rcases hoffers with ⟨hallowed, -⟩ | ⟨s, hs, -, hname⟩
    · rw [hfor] at hallowed
      exact hallowed
    · rw [config_of_inquiry hasked] at hs
      rw [h.reserved.isFunction_eq_false hs hname.symm] at hfunction
      contradiction
  rw [(inOrder_reachable h.reachable.bar).offers] at hallowed
  unfold offersFunctions at hallowed
  rw [Bool.and_eq_true, Bool.and_eq_true] at hallowed
  obtain ⟨-, hempty, hnone⟩ := hallowed
  constructor
  · refine List.eq_nil_iff_forall_not_mem.mpr fun m hm => ?_
    obtain ⟨-, -, hnotices⟩ := EditBox.typeText_of_inquiry w.bar.keys hasked
    rcases mem_takeTurn hm with hold | ⟨n, hn, hcame⟩
    · rw [List.isEmpty_iff.mp hempty] at hold
      contradiction
    · rw [hnotices n hn] at hcame
      contradiction
  · exact (carries_input w.bar text).function.trans (Option.isNone_iff_eq_none.mp hnone)

theorem Started.fronts (h : w.Started) : ∀ b ∈ w.bar.box.buckets, b.Fronts := by
  have hsound := sound_reachable h.reachable
  cases hq : w.inquiry with
  | none =>
      rw [(hsound.closed hq).2]
      simp
  | some q =>
      obtain ⟨hshown, hconfig, -⟩ := hsound.shown q hq
      rw [hshown.buckets]
      exact SearchContext.fronts_withAnswers (hconfig ▸ h.reserved) w.landed

/-- An answer makes no difference to whether names are offered in time. -/
theorem Started.timely_delivered (h : w.Started) (htimely : w.Timely) (a : LookupAnswer) :
    (w.delivered a).Timely := by
  rintro ⟨o, ho, hfunction⟩
  obtain ⟨bs, hbox, hbs⟩ := w.bar.box.takeAnswer_eq w.bar.config a
  have hbuckets : (w.delivered a).bar.box.buckets = bs := hbox.buckets
  rw [hbuckets] at ho
  have hbefore : w.bar.OffersFunction := by
    rcases hbs with rfl | hbs
    · exact ⟨o, ho, hfunction⟩
    · refine Buckets.exists_function_of_withAnswer (a := a) h.reserved h.fronts ⟨o, ?_, hfunction⟩
      unfold Buckets.withAnswer
      rw [hbs]
      exact ho
  exact ⟨(htimely hbefore).row, (htimely hbefore).function⟩

/-- **Names are offered too late exactly if a matcher is put in while they are offered.** -/
theorem Started.timely_step_iff (h : w.Started) (htimely : w.Timely)
    (hbox : operation.isOfBox = true) :
    (w.step operation).Timely ↔ ¬ (w.bar.OffersFunction ∧ w.bar.Inserts operation) := by
  have hstep : w.bar.InStep := h.homegrown.tended.inStep
  -- A turn of the box that is taken over, by a key or by a choice.
  have hturned : ∀ {asked : Bool} {turn : Turn Reaction} {b : Bar},
      w.bar.box.Course w.bar.surroundings w.bar.keys asked turn → b = (w.bar.takeTurn turn).1 →
      ((b.OffersFunction → b.Unentered) ↔
        ¬ (w.bar.OffersFunction ∧ ∃ m, .insert m ∈ turn.notices)) := by
    rintro asked turn b hcourse rfl
    constructor
    · rintro hafter ⟨hoffers, m, hinsert⟩
      have hclosed := closed_of_empty hstep (htimely hoffers).row
      obtain ⟨hkeeps, hsome⟩ := keeps_of_insert hcourse hclosed hinsert
      exact hsome (hafter ((offersFunction_of_keeps hkeeps).mpr hoffers)).row
    · intro hkept hoffers
      have hfollows := follows_takeTurn_of_box turn hcourse.follows
      have hbefore := (offersFunction_of_keeps (hfollows.keeps_of_offers hoffers)).mp hoffers
      refine unentered_takeTurn hcourse (htimely hbefore) hoffers fun m hinsert => ?_
      exact hkept ⟨hbefore, m, hinsert⟩
  have hsilent : ∀ {notices : List Notice}, notices = [] →
      ¬ (w.bar.OffersFunction ∧ ∃ m, .insert m ∈ notices) := by
    rintro _ rfl ⟨-, m, hinsert⟩
    contradiction
  have htext : ∀ text, ¬ (w.bar.OffersFunction ∧ ∃ m,
      .insert m ∈ (w.bar.box.typeText w.bar.surroundings w.bar.keys text).notices) := by
    rintro text ⟨hoffers, m, hinsert⟩
    exact not_inserts_text (closed_of_empty hstep (htimely hoffers).row) text m hinsert
  cases operation with
  | input text => exact iff_of_true (h.timely_typed text) (htext text)
  | compose operator comparison => exact iff_of_true (h.timely_typed _) (htext _)
  | takeAnswer a => exact iff_of_true (h.timely_delivered htimely a) (hsilent rfl)
  | highlight slot =>
      refine iff_of_true (fun hoffers => ?_) (hsilent rfl)
      have hkeeps := (w.bar.box.resembles_highlight slot).toKeeps
      have hkept : (w.bar.highlight slot).OffersFunction ↔ w.bar.OffersFunction :=
        offersFunction_of_keeps hkeeps
      exact ⟨(htimely (hkept.mp hoffers)).row, (htimely (hkept.mp hoffers)).function⟩
  | choose slot insert =>
      exact hturned (w.bar.box.course_select w.bar.surroundings w.bar.keys slot insert) rfl
  | key press =>
      rcases w.bar.key_cases press with ⟨-, hkey⟩ | ⟨hleft, hnotices, hkey⟩
      · exact hturned (w.bar.box.course_key w.bar.surroundings w.bar.keys press) hkey
      · refine iff_of_true (fun hoffers => ?_) (hsilent hnotices)
        have hkeeps := (follows_key w.bar press).keeps_of_offers hoffers
        have hbefore := htimely ((offersFunction_of_keeps hkeeps).mp hoffers)
        let left := { w.bar with box := (w.bar.box.key w.bar.surroundings w.bar.keys press).box }
        have hleft : left.Unentered := ⟨hbefore.row, hbefore.function⟩
        show (w.bar.key press).1.Unentered
        rw [hkey]
        exact unentered_command hleft press
  | _ => contradiction

/-! ### Along a history -/

/-- A matcher is put in beside the names of functions that are offered. -/
def PutsBesideNames (w : Watch) (operation : Operation) : Prop :=
  w.bar.OffersFunction ∧ w.bar.Inserts operation

instance (w : Watch) (operation : Operation) : Decidable (w.PutsBesideNames operation) :=
  inferInstanceAs (Decidable (_ ∧ _))

/-- If an operation makes a function active, nothing had been entered, and the row stays empty. -/
def FoundsOnNothing (w : Watch) (operation : Operation) : Prop :=
  ∀ f, (w.step operation).bar.function = some f → w.bar.function ≠ some f →
    w.bar.Unentered ∧ (w.step operation).bar.matchers = []

theorem Timely.foundsOnNothing (h : w.Timely) (hbox : operation.isOfBox = true) :
    w.FoundsOnNothing operation := by
  intro f hactive hnew
  rw [bar_step] at hactive ⊢
  obtain ⟨hoffers, hrow⟩ := of_function_perform hbox hactive hnew
  exact ⟨h hoffers, hrow.trans (h hoffers).row⟩

theorem Started.timely_throughout_iff (h : w.Started) (htimely : w.Timely)
    (hbox : ∀ operation ∈ history, operation.isOfBox = true) (hadmits : w.AtEach Admits history) :
    w.Throughout Timely history ↔
      w.AtEach (fun w operation => ¬ w.PutsBesideNames operation) history := by
  induction history generalizing w with
  | nil => exact iff_of_true htimely trivial
  | cons operation rest ih =>
      have hfirst := hbox operation List.mem_cons_self
      have hlater : ∀ operation ∈ rest, operation.isOfBox = true :=
        fun operation hmem => hbox operation (List.mem_cons_of_mem _ hmem)
      have hstep := h.timely_step_iff htimely hfirst
      have hnext := h.step hfirst hadmits.1
      constructor
      · rintro ⟨-, hrest⟩
        exact ⟨hstep.mp hrest.head, (ih hnext hrest.head hlater hadmits.2).mp hrest⟩
      · rintro ⟨hkept, hrest⟩
        have hafter := hstep.mpr hkept
        exact ⟨htimely, (ih hnext hafter hlater hadmits.2).mpr hrest⟩

theorem foundsOnNothing_of_timely (h : w.Throughout Timely history)
    (hbox : ∀ operation ∈ history, operation.isOfBox = true) :
    w.AtEach FoundsOnNothing history := by
  induction history generalizing w with
  | nil => trivial
  | cons operation rest ih =>
      refine ⟨Timely.foundsOnNothing h.1 (hbox operation List.mem_cons_self), ih h.2 ?_⟩
      exact fun operation hmem => hbox operation (List.mem_cons_of_mem _ hmem)

/-- **Names of functions are offered only while nothing has been entered**, along every use of the
box of a bar that was set up empty, exactly if no matcher is ever put in beside such names.  A
function then becomes active only where nothing has been entered. -/
theorem names_offered_in_time_iff {b : Bar} (hbuilt : b.Built) (hempty : b.matchers = [])
    (hreserved : b.config.ReservesFunctionSource)
    (hbox : ∀ operation ∈ history, operation.isOfBox = true)
    (hadmits : (on b).AtEach Admits history) :
    ((on b).Throughout Timely history ↔
      (on b).AtEach (fun w operation => ¬ w.PutsBesideNames operation) history) ∧
    ((on b).Throughout Timely history → (on b).AtEach FoundsOnNothing history) := by
  have hstarted := started_on hbuilt hempty hreserved
  have htimely : (on b).Timely := by
    rintro ⟨o, ⟨bucket, hbucket, -⟩, -⟩
    have hnothing : (on b).inquiry = none := ite_self none
    rw [((sound_reachable hstarted.reachable).closed hnothing).2] at hbucket
    contradiction
  exact ⟨hstarted.timely_throughout_iff htimely hbox hadmits,
    fun htimely => foundsOnNothing_of_timely htimely hbox⟩

/-- There is a function of colours, with a name that begins as a colour does. -/
def redo : Config :=
  { Config.ofSources [{
      name := "colour", title := "Colours", comparisons := ["="]
      definitions := [.list { supply := .items [.text "red"] }] }]
    with functions := [{ name := "Redo", optional := ["colour"] }] }

theorem names_offered_in_time_iff_redo :
    let b := Bar.new redo 0
    let history := [.input "re", .choose 0 false, .input "red", .choose 0 true]
    b.Built ∧ b.matchers = [] ∧ b.config.ReservesFunctionSource ∧
      (∀ operation ∈ history, operation.isOfBox = true) ∧ (on b).AtEach Admits history ∧
      (on b).Throughout Timely history ∧ (on b).AtEach FoundsOnNothing history ∧
      (b.run history).function.isSome = true ∧
      (b.run history).matchers.map (·.source) = ["colour"] := by
  intro b history
  have hbuilt : b.Built := .new redo 0
  have hreserved : b.config.ReservesFunctionSource := by
    unfold Config.ReservesFunctionSource
    decide +kernel
  have hbox : ∀ operation ∈ history, operation.isOfBox = true := by decide
  have hadmits : (on b).AtEach Admits history := ⟨trivial, trivial, trivial, trivial, trivial⟩
  obtain ⟨hiff, hfounds⟩ := names_offered_in_time_iff hbuilt rfl hreserved hbox hadmits
  have htimely : (on b).Throughout Timely history := hiff.mpr (by decide +kernel)
  exact ⟨hbuilt, rfl, hreserved, hbox, hadmits, htimely, hfounds htimely, by decide +kernel,
    by decide +kernel⟩

/-- **Redo is offered, and can be chosen, beside a colour that has been put in.** -/
theorem names_offered_beside_matcher :
    let w := ((start redo 0).step (.input "red")).step (.choose 1 true)
    Reachable w ∧ w.bar.matchers.map (·.source) = ["colour"] ∧ w.bar.OffersFunction ∧
      ¬ w.Timely ∧ (w.step (.choose 0 false)).bar.function.isSome = true ∧
      ¬ w.FoundsOnNothing (.choose 0 false) := by
  intro w
  have hoffers : w.bar.OffersFunction := by decide +kernel
  have hrow : w.bar.matchers ≠ [] := by decide +kernel
  have hnone : w.bar.function.isNone = true := by decide +kernel
  have hset : (w.step (.choose 0 false)).bar.function.isSome = true := by decide +kernel
  have hreachable : Reachable w :=
    .step (.step (.start redo 0) (.input "red") trivial) (.choose 1 true) trivial
  refine ⟨hreachable, by decide +kernel, hoffers, fun htimely => hrow (htimely hoffers).row, hset,
    fun hfounds => ?_⟩
  obtain ⟨f, hf⟩ := Option.isSome_iff_exists.mp hset
  refine hrow (hfounds f hf fun hbefore => ?_).1.row
  rw [hbefore] at hnone
  contradiction

/-- A source has the name that suggestions of functions carry. -/
def namesake : Config :=
  { redo with
    sources := redo.sources ++ [{
      name := functionSource, title := "Verbs", comparisons := ["="]
      definitions := [.list { supply := .items [.text "Redo"] }] }] }

/-- **The options of such a source pass for names of functions**, whatever has been entered. -/
theorem names_offered_by_namesake :
    let w := (((start namesake 0).step (.input "red")).step (.choose 1 false)).step (.input "Redo")
    Reachable w ∧ w.bar.matchers.map (·.source) = ["colour"] ∧ w.bar.OffersFunction ∧
      (w.step (.choose 0 false)).bar.function.isSome = true ∧
      (w.step (.choose 0 false)).bar.matchers.map (·.source) = ["colour"] := by
  intro w
  have hchosen : Reachable (((start namesake 0).step (.input "red")).step (.choose 1 false)) :=
    .step (.step (.start namesake 0) (.input "red") trivial) (.choose 1 false) trivial
  exact ⟨.step hchosen (.input "Redo") trivial, by decide +kernel, by decide +kernel,
    by decide +kernel, by decide +kernel⟩

end Watch

end QueryBar
