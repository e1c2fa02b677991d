/-
What becomes of an error when the next thing is committed.

An error is shown by the box in which it came up.  It is forgotten with the box, when the box is
told of a place of another kind, and at every key.  So a commit by a key leaves no error behind.  A
commit by a click, or by a bracket that is typed, does not touch the error itself, and what
becomes of it is decided by what the commit makes of the open box: the error is gone exactly if
another box is open afterwards, or if the box no longer stands at the start of a group, or only
now does (`commit_forgets_error_iff`).

The trailing box stays where it is from the second matcher of a row on, so that an objection to one
candidate is still shown beside the next one that is clicked.
-/
import QueryBar.Proofs.Bar.FreeText

namespace QueryBar

namespace EditBox

variable {e : EditBox} {around : Surroundings} {keys : KeySupply} {choice : Choice}
  {inserting shift : Bool} {slot : Nat} {bracket : Bracket} {text : String} {p : KeyPress}
  {turn : Turn Reaction}

/-! ### Errors of a box -/

theorem error_settleHighlight (e : EditBox) : e.settleHighlight.error = e.error := by
  unfold settleHighlight
  split
  · rfl
  · split
    · rfl
    · split
      · rfl
      · split <;> rfl

theorem error_reopen (e : EditBox) (mode : OperatorMode) : (e.reopen mode).error = e.error := by
  unfold reopen
  dsimp only
  split <;> rfl

/-- A commit leaves the error of the box as it was. -/
theorem error_commit (hturn : e.commit around keys choice inserting = turn)
    (h : turn.answer = .committed) : turn.box.error = e.error := by
  unfold commit at hturn
  dsimp only at hturn
  split at hturn
  · subst hturn
    contradiction
  · split at hturn
    · subst hturn
      contradiction
    · split at hturn <;> subst hturn <;> rfl

theorem error_select (hturn : e.select around keys slot inserting = turn)
    (h : turn.answer = .committed) : turn.box.error = e.error := by
  unfold select at hturn
  split at hturn
  · subst hturn
    rfl
  · split at hturn
    · split at hturn <;> subst hturn <;> contradiction
    · exact error_commit hturn h

theorem error_onEnter (hturn : e.onEnter around keys shift = turn)
    (h : turn.answer = .committed) : turn.box.error = e.error := by
  unfold onEnter commitFreeText at hturn
  split at hturn
  · split at hturn <;> subst hturn <;> rfl
  · split at hturn
    · dsimp only at hturn
      split at hturn
      · subst hturn
        contradiction
      · exact error_select hturn h
    · subst hturn
      exact absurd h (e.answer_leave keys)

/-- Only enter and tab commit anything. -/
theorem confirming_of_committed (h : (e.key around keys p).answer = .committed) :
    p.key = .enter ∨ p.key = .tab := by
  rw [answer_key] at h
  unfold react at h
  cases hkey : p.key with
  | enter => exact Or.inl rfl
  | tab => exact Or.inr rfl
  | _ =>
      rw [hkey] at h
      unfold stepHighlight pageHighlight jumpHighlight onBackspace onEscape at h
      simp only at h
      split_ifs at h

/-- **A key that commits leaves no error.** -/
theorem error_key (h : (e.key around keys p).answer = .committed) :
    (e.key around keys p).box.error = none := by
  obtain ⟨outcome, hconfirmed⟩ := e.key_of_confirming around keys (confirming_of_committed h)
  rw [hconfirmed] at h ⊢
  exact error_onEnter rfl h

theorem error_takeBracket (h : e.precedes bracket = true ∨
      around.objection? (e.become around.config keys (.bracket bracket) false) false = none) :
    (e.takeBracket around keys bracket).box.error = e.error := by
  unfold takeBracket
  split
  · exact e.error_reopen _
  · rename_i hsame
    have howner := h.resolve_left hsame
    refine error_commit rfl ?_
    unfold become at howner
    unfold commit
    simp only [Choice.objection?, howner, Bool.false_eq_true, if_false]

/-- A bracket that is accepted leaves the error of the box as it was. -/
theorem error_typeText
    (h : (Tokens.ofText around.config around.function text).bracket = some bracket)
    (haccepts : e.Accepts around keys text bracket) :
    (e.typeText around keys text).box.error = e.error := by
  have htaken : ∀ typed : EditBox, (e.holding around text).Resembles typed →
      typed.error = e.error → (typed.takeBracket around keys bracket).box.error = e.error := by
    intro typed hbox herror
    rw [← herror]
    refine error_takeBracket ?_
    rw [hbox.precedes, hbox.become]
    exact haccepts
  unfold typeText
  dsimp only
  rw [if_neg (by rw [Tokens.of_bracket h]; exact Bool.false_ne_true), h]
  dsimp only
  refine htaken _ (Resembles.trans ?_ (resembles_settleHighlight _)) (error_settleHighlight _)
  exact ⟨⟨rfl, rfl, rfl, rfl, rfl, rfl⟩, rfl, rfl, rfl, rfl⟩

end EditBox

/-- The operation is a key press. -/
def Operation.isKey : Operation → Bool
  | .key _ => true
  | _ => false

namespace Bar

variable {b b' : Bar} {operation : Operation} {inserting : Bool} {m : Matcher} {α : Type}
  {turn : Turn α}

/-! ### Errors of a bar -/

/-- A box that is told its place keeps its error where it stood at the start of a group before, or
did not, just as now. -/
theorem error_rowChanged (b : Bar) : b.rowChanged.box.error =
    if b.startsGroup = b.box.first then b.box.error else none := by
  unfold rowChanged tell flagBrackets placeBox startsGroup
  cases b.active <;> rfl

theorem error_openTrailing (h : b.active.isSome = true) : b.openTrailing.box.error = none := by
  unfold openTrailing openAt
  dsimp only [Option.bind_none, Option.map_none]
  have hanother : ¬ (none = b.active ∧ none = b.box.matcher.map (·.key)) := by
    rintro ⟨hactive, -⟩
    rw [← hactive] at h
    contradiction
  rw [if_neg hanother]
  rfl

/-! ### What a commit makes of the open box -/

/-- With the commit that leads to the second bar the open box stays, at a place of the same kind: it
is the trailing box of a row that had something in it; or its matcher has gone from the row; or
what is put before its matcher makes no difference to whether it stands at the start of a group. -/
inductive Lingers (b b' : Bar) : Bool → Prop
  | trailing {inserting : Bool} (hheld : b.box.matcher = none) (hrow : b.matchers ≠ []) :
    Lingers b b' inserting
  | gone {inserting : Bool} (old : Matcher) (hheld : b.box.matcher = some old)
    (hgone : old.key ∉ b.matchers.map (·.key)) : Lingers b b' inserting
  | before (old : Matcher) (hheld : b.box.matcher = some old)
    (hplace : old.key ∈ b.matchers.map (·.key)) (hstarts : b'.startsGroup = b.startsGroup) :
    Lingers b b' true

/-- The open box is kept with its error exactly if it lingers, and it is without an error else. -/
structure Passes (b b' : Bar) (inserting : Bool) (error : Option String) : Prop where
  kept : b.Lingers b' inserting → b'.box.error = error
  dropped : ¬ b.Lingers b' inserting → b'.box.error = none

theorem Passes.of_lingers {error : Option String} (h : b.Lingers b' inserting)
    (hbox : b'.box.error = error) : b.Passes b' inserting error :=
  ⟨fun _ => hbox, fun hgone => absurd h hgone⟩

theorem Passes.of_not_lingers {error : Option String} (h : ¬ b.Lingers b' inserting)
    (hbox : b'.box.error = none) : b.Passes b' inserting error :=
  ⟨fun hstays => absurd hstays h, fun _ => hbox⟩

/-- What joins the end of the row takes the trailing box off the start of it. -/
theorem passes_add (m : Matcher) (hclosed : b.Closed) (hfirst : b.box.first = b.startsGroup) :
    b.Passes (b.add m) inserting b.box.error := by
  have hstarts : b.startsGroup = b.matchers.isEmpty := by
    unfold startsGroup
    rw [hclosed.active]
  have hstarted : { b with matchers := b.matchers ++ [m] }.startsGroup = false := by
    unfold startsGroup
    rw [hclosed.active]
    simp
  have herror : (b.add m).box.error
      = if false = b.matchers.isEmpty then b.box.error else none := by
    rw [← hstarted, ← hstarts, ← hfirst]
    exact error_rowChanged _
  by_cases hrow : b.matchers = []
  · refine .of_not_lingers ?_ (by rw [herror, hrow]; rfl)
    intro hlingers
    cases hlingers with
    | trailing _ hfull => exact hfull hrow
    | gone old hheld _ | before old hheld _ _ =>
        exact absurd (hclosed.held.symm.trans hheld) (by simp)
  · refine .of_lingers (.trailing hclosed.held hrow) ?_
    rw [herror, if_pos (by simpa using hrow)]

/-- What replaces the edited matcher closes its box, if it is in the row to be replaced. -/
theorem passes_update {old : Matcher} (hactive : b.active.isSome = true)
    (hheld : b.box.matcher = some old) (hkey : m.key = old.key) :
    b.Passes (b.update m).1 false b.box.error := by
  unfold update
  rw [hkey]
  cases hplace : b.placeOf? old.key with
  | none =>
      refine .of_lingers (.gone old hheld ?_) rfl
      rw [← exists_placeOf?_iff, hplace]
      simp
  | some i =>
      refine .of_not_lingers ?_ ?_
      · intro hlingers
        cases hlingers with
        | trailing hnone _ => exact absurd (hnone.symm.trans hheld) (by simp)
        | gone old' hheld' hgone =>
            obtain rfl := Option.some.inj (hheld.symm.trans hheld')
            exact hgone (exists_placeOf?_iff.mp ⟨i, hplace⟩)
      · dsimp only
        rw [error_rowChanged, error_openTrailing (by exact hactive), ite_self]

/-- What is put before the edited matcher leaves its box open. -/
theorem passes_insertBefore {old : Matcher} (hheld : b.box.matcher = some old)
    (hfirst : b.box.first = b.startsGroup) :
    b.Passes ((b.insertBefore m (some old.key)).toOption.getD b) true b.box.error := by
  unfold insertBefore
  dsimp only
  cases hplace : b.placeOf? old.key with
  | none =>
      refine .of_lingers (.gone old hheld ?_) rfl
      rw [← exists_placeOf?_iff, hplace]
      simp
  | some i =>
      have hin : old.key ∈ b.matchers.map (·.key) := exists_placeOf?_iff.mp ⟨i, hplace⟩
      show b.Passes (rowChanged _) true b.box.error
      generalize hput : { b with
        matchers := b.matchers.take i ++ m :: b.matchers.drop i
        active := b.active.map fun a => if i ≤ a then a + 1 else a } = put
      have hbox : put.box = b.box := by rw [← hput]
      have herror : put.rowChanged.box.error
          = if put.rowChanged.startsGroup = b.startsGroup then b.box.error else none := by
        rw [← hfirst, ← hbox]
        exact error_rowChanged put
      by_cases hstarts : put.rowChanged.startsGroup = b.startsGroup
      · exact .of_lingers (.before old hheld hin hstarts) (herror.trans (if_pos hstarts))
      · refine .of_not_lingers ?_ (herror.trans (if_neg hstarts))
        intro hlingers
        cases hlingers with
        | trailing hnone _ => exact absurd (hnone.symm.trans hheld) (by simp)
        | gone old' hheld' hgone =>
            obtain rfl := Option.some.inj (hheld.symm.trans hheld')
            exact hgone hin
        | before _ _ _ hsame => exact hstarts hsame

/-- Whether the box lingers depends on the row and on which matcher is open, as does whether it
stands at the start of a group. -/
theorem Passes.congr_left {heard : Bar} {error : Option String} (hkept : b.KeepsOpen heard)
    (hrow : heard.matchers = b.matchers) (h : heard.Passes b' inserting error) :
    b.Passes b' inserting error := by
  have hstarts : heard.startsGroup = b.startsGroup := by
    unfold startsGroup isFirst
    rw [hkept.active, hrow]
  have hlingers : b.Lingers b' inserting ↔ heard.Lingers b' inserting := by
    constructor
    · rintro (⟨hheld, hfull⟩ | ⟨old, hheld, hgone⟩ | ⟨old, hheld, hplace, hsame⟩)
      · exact .trailing (hkept.held.trans hheld) (hrow ▸ hfull)
      · exact .gone old (hkept.held.trans hheld) (hrow ▸ hgone)
      · exact .before old (hkept.held.trans hheld) (hrow ▸ hplace) (hsame.trans hstarts.symm)
    · rintro (⟨hheld, hfull⟩ | ⟨old, hheld, hgone⟩ | ⟨old, hheld, hplace, hsame⟩)
      · exact .trailing (hkept.held.symm.trans hheld) (hrow ▸ hfull)
      · exact .gone old (hkept.held.symm.trans hheld) (hrow ▸ hgone)
      · exact .before old (hkept.held.symm.trans hheld) (hrow ▸ hplace) (hsame.trans hstarts)
  exact ⟨fun hstays => h.kept (hlingers.mp hstays),
    fun hends => h.dropped fun hstays => hends (hlingers.mpr hstays)⟩

/-- **What a commit makes of the error that the box has by then.** -/
theorem passes_takeTurn (hfirst : turn.box.first = b.startsGroup) (hpaired : b.Paired)
    (h : b.box.Confirms b.keys inserting turn) :
    b.Passes (b.takeTurn turn).1 inserting turn.box.error := by
  obtain ⟨asides, m, hasides, hwish, hkey⟩ := h.wish
  let edited := b.box.matcher.map (·.key)
  let taken : Bar := { b with box := turn.box, keys := turn.keys }
  obtain ⟨heard, hheard⟩ : ∃ heard, heard = asides.foldl (heed edited) taken := ⟨_, rfl⟩
  have hbox : heard.box = turn.box := by
    rw [hheard]
    exact box_foldl_heed_aside edited hasides taken
  have halike : taken.Alike heard := by
    rw [hheard]
    exact alike_foldl_heed hasides edited taken
  have hkept : b.KeepsOpen heard := ⟨halike.active, halike.held.trans h.held⟩
  have hturn : (b.takeTurn turn).1
      = heed edited heard (if inserting then .insert m else .changed (some m)) := by
    unfold takeTurn
    dsimp only
    rw [h.held, hwish, List.foldl_append, List.foldl_cons, List.foldl_nil, hheard]
  have hstarts : heard.box.first = heard.startsGroup := by
    rw [hbox, hfirst]
    unfold startsGroup isFirst
    rw [halike.active, halike.row]
  rw [← hbox, hturn]
  refine Passes.congr_left hkept halike.row ?_
  rcases hpaired.closed_or_open with hclosed | ⟨i, old, hactive, hheld⟩
  · have hadds : heed edited heard (if inserting then .insert m else .changed (some m))
        = heard.add m := by
      have hnone : edited = none := by
        show b.box.matcher.map (·.key) = none
        rw [hclosed.held]
        rfl
      rw [hnone]
      cases inserting <;> rfl
    rw [hadds]
    exact passes_add m (hkept.closed hclosed) hstarts
  · have hopen : edited = some old.key := congrArg (Option.map (·.key)) hheld
    have hheld' : heard.box.matcher = some old := hkept.held.trans hheld
    rw [hopen]
    cases inserting with
    | true => exact passes_insertBefore hheld' hstarts
    | false =>
        refine passes_update (by rw [hkept.active, hactive]; rfl) hheld' ?_
        unfold EditBox.takeKey at hkey
        rw [hheld] at hkey
        exact hkey

/-- However something is committed, the box has been told nothing of its place by then, and only a
key has cleared the error. -/
theorem Confirmed.exists_turn_error (h : b.Confirmed operation inserting) :
    ∃ (α : Type) (turn : Turn α), b.box.Confirms b.keys inserting turn ∧
      (b.perform operation).1 = (b.takeTurn turn).1 ∧ turn.box.first = b.box.first ∧
      turn.box.error = if operation.isKey then none else b.box.error := by
  cases h with
  | chosen slot inserting hcommitted =>
      exact ⟨_, b.box.select b.surroundings b.keys slot inserting,
        EditBox.confirms_select rfl hcommitted, rfl,
        (b.box.course_select b.surroundings b.keys slot inserting).samePlace.first,
        EditBox.error_select rfl hcommitted⟩
  | pressed p hkey hcommitted =>
      obtain ⟨hanswer, hbar⟩ := key_of_edit hcommitted
      exact ⟨_, b.box.key b.surroundings b.keys p,
        EditBox.confirms_key hkey rfl hanswer, hbar,
        (b.box.course_key b.surroundings b.keys p).samePlace.first, EditBox.error_key hanswer⟩
  | typed text bracket hbracket haccepts =>
      exact ⟨_, b.box.typeText b.surroundings b.keys text,
        EditBox.confirms_typeText hbracket haccepts, rfl,
        (b.box.samePlace_typeText b.surroundings b.keys text).first,
        EditBox.error_typeText hbracket haccepts⟩

/-- Any key with which the box commits has confirmed something. -/
theorem confirmed_key {p : KeyPress}
    (h : (b.box.key b.surroundings b.keys p).answer = .committed) :
    b.Confirmed (.key p) (p.shift && !b.box.isQuoted) := by
  refine .pressed p (EditBox.confirming_of_committed h) ?_
  rw [key_of_used (by rw [h]; simp), h]

/-- **After a commit no error is shown exactly if there was none before, a key made the commit, or
the open box does not linger.**  Any other error is the one that was there before. -/
theorem commit_forgets_error_iff (h : Reachable b)
    (hconfirmed : b.Confirmed operation inserting) :
    let b' := (b.perform operation).1
    (b'.box.error = none ↔
        b.box.error = none ∨ operation.isKey = true ∨ ¬ b.Lingers b' inserting) ∧
      (b'.box.error ≠ none → b'.box.error = b.box.error) := by
  intro b'
  obtain ⟨α, turn, hconfirms, hturn, hfirst, herror⟩ := hconfirmed.exists_turn_error
  have hpasses : b.Passes b' inserting turn.box.error := by
    rw [show b' = (b.takeTurn turn).1 from hturn]
    exact passes_takeTurn (hfirst.trans (abreast_reachable h).first) (paired_reachable h) hconfirms
  by_cases hlingers : b.Lingers b' inserting
  · have hkept := (hpasses.kept hlingers).trans herror
    cases hkey : operation.isKey with
    | true =>
        rw [hkey] at hkept
        exact ⟨iff_of_true hkept (Or.inr (Or.inl rfl)), fun hsome => absurd hkept hsome⟩
    | false =>
        rw [hkey] at hkept
        have hsame : b'.box.error = b.box.error := hkept
        refine ⟨?_, fun _ => hsame⟩
        rw [hsame, or_iff_left]
        rintro (hpressed | hends)
        · contradiction
        · exact hends hlingers
  · have hnone := hpasses.dropped hlingers
    exact ⟨iff_of_true hnone (Or.inr (Or.inr hlingers)), fun hsome => absurd hnone hsome⟩

/-- A bar with one colour at most, and with sizes. -/
def oneColour : Bar :=
  Bar.new
    (.ofSources
      [{ name := "colour", title := "Colours", comparisons := ["="], selectionLimit := some 1
         definitions := [.list { supply := .items [.text "red", .text "green"] }] },
       { name := "size", title := "Sizes", comparisons := ["="]
         definitions := [.list { supply := .items [.text "small"] }] }])
    0

/-- A second colour is clicked and refused, and a size is typed next. -/
def oneColour.refused : Bar :=
  oneColour.run
    [.input "red", .choose 0 false, .input "green", .choose 0 false, .input "small"]

theorem oneColour.reachable_refused : oneColour.refused.Reachable :=
  Reachable.run (.new ..) _

/-- The size is entered, and the objection to the colour is gone. -/
theorem commit_forgets_error_iff_refused :
    let b := oneColour.refused
    let enter : Operation := .key { key := .enter }
    let b' := (b.perform enter).1
    b.Reachable ∧ b.Confirmed enter false ∧
      b.box.error = some (Row.limitExceeded "Colours" 1) ∧
      b'.matchers.map (·.text) = ["red", "small"] ∧ b'.box.error = none := by
  intro b enter b'
  have hreachable : b.Reachable := oneColour.reachable_refused
  have hconfirmed : b.Confirmed enter false := by
    have hkey := confirmed_key (b := b) (p := { key := .enter }) (by decide +kernel)
    rwa [Bool.false_and] at hkey
  obtain ⟨hforgets, -⟩ := commit_forgets_error_iff hreachable hconfirmed
  exact ⟨hreachable, hconfirmed, by decide +kernel, by decide +kernel,
    hforgets.mpr (Or.inr (Or.inl rfl))⟩

/-- **The size is clicked, and the objection to the colour is still shown beside it.** -/
theorem error_outlives_click :
    let b := oneColour.refused
    let b' := (b.perform (.choose 0 false)).1
    b.Reachable ∧ b.Confirmed (.choose 0 false) false ∧
      b'.matchers.map (·.text) = ["red", "small"] ∧
      b'.box.error = some (Row.limitExceeded "Colours" 1) := by
  intro b b'
  exact ⟨oneColour.reachable_refused, .chosen 0 false (by decide +kernel), by decide +kernel,
    by decide +kernel⟩

/-- **A bracket is typed instead, and the objection is still shown as well.** -/
theorem error_outlives_bracket :
    let b := oneColour.refused
    let b' := (b.perform (.input "(")).1
    b.Reachable ∧ b.Confirmed (.input "(") false ∧
      b'.matchers.map (·.comparison) = ["=", "("] ∧
      b'.box.error = some (Row.limitExceeded "Colours" 1) := by
  intro b b'
  have hconfirmed : b.Confirmed (.input "(") (b.box.precedes .opening) :=
    .typed "(" .opening (by decide +kernel) (Or.inr (by decide +kernel))
  exact ⟨oneColour.reachable_refused, hconfirmed, by decide +kernel, by decide +kernel⟩

end Bar

end QueryBar
