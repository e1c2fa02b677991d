/-
Whether a committed option keeps to the limit of its source.

A candidate is judged in the row in which it would replace the active place, or join the end.
It is then put in the place of the matcher that is edited, or before it, or joins the end.
What results need not be what was judged, in three ways (`Overruns`): a candidate that goes
before the edited matcher may begin a group there while it would have joined one at the end; the
edited matcher may be gone; and it may stand elsewhere than at the active place.  The last two
need a row from outside, or keys that are not apart, and the first one needs groups.
-/
import QueryBar.Proofs.Bar.Legality
import QueryBar.Proofs.EditBox.Commits

namespace QueryBar.Bar

variable {b b' : Bar} {m old : Matcher} {o : Suggestion} {s : Source} {inserting : Bool}
  {i n : Nat} {turn : Turn Reaction}

/-- The matcher that a suggestion of the open box is to become. -/
def candidateFor (b : Bar) (o : Suggestion) (inserting : Bool) : Matcher :=
  b.box.candidateFor b.config b.keys o inserting

/-- A suggestion of the open box is committed, by picking its slot or by enter or tab. -/
inductive Commits (b : Bar) (o : Suggestion) (inserting : Bool) : Bar → Prop
  | chosen (slot : Nat) (hoption : b.box.buckets.get? slot = some o)
      (hcommitted : (b.choose slot inserting).2 = .committed) :
      Commits b o inserting (b.choose slot inserting).1
  | pressed (p : KeyPress) (slot : Nat) (hkey : p.key = .enter ∨ p.key = .tab)
      (hshift : p.shift = inserting)
      (htext : freeTextMark.toList.isPrefixOf b.box.text.toList = false)
      (hslot : b.box.highlighted = some slot) (hoption : b.box.buckets.get? slot = some o)
      (hcommitted : (b.key p).2 = .edit .committed) : Commits b o inserting (b.key p).1

/-- How often the bar counts the source of a matcher to be selected in a row. -/
def selections (b : Bar) (source : String) (row : List Matcher) : Nat :=
  Row.selectionCount (Row.countsGroups b.config) source none row

/-! ### What a commit comes to -/

/-- The row in which a candidate ends up. -/
def rowWith (b : Bar) (m : Matcher) (inserting : Bool) : List Matcher :=
  match b.box.matcher with
  | none => b.matchers ++ [m]
  | some old =>
    match b.placeOf? old.key with
    | none => b.matchers
    | some i =>
      if inserting then b.matchers.take i ++ m :: b.matchers.drop i else b.matchers.set i m

theorem matchers_update (b : Bar) (m : Matcher) : (b.update m).1.matchers =
    match b.placeOf? m.key with
    | none => b.matchers
    | some i => b.matchers.set i m := by
  cases hplace : b.placeOf? m.key with
  | none =>
      unfold update
      rw [hplace]
  | some i => exact (change_update_of_place hplace).row

theorem matchers_insertBefore (b : Bar) (m : Matcher) (key : String) :
    ((b.insertBefore m (some key)).toOption.getD b).matchers =
      match b.placeOf? key with
      | none => b.matchers
      | some i => b.matchers.take i ++ m :: b.matchers.drop i := by
  unfold insertBefore
  dsimp only
  cases hplace : b.placeOf? key with
  | none => rfl
  | some i => exact (alike_rowChanged _).row

/-- **A matcher that a turn wishes for is put into the row**, and asides before the wish make no
difference to that. -/
theorem matchers_takeTurn_of_wish {α : Type} {turn : Turn α} {asides : List Notice}
    (hheld : turn.box.matcher = b.box.matcher) (hasides : ∀ n ∈ asides, n.isAside = true)
    (hnotices : turn.notices = asides ++ [if inserting then .insert m else .changed (some m)])
    (hkey : m.key = (b.box.takeKey inserting b.keys).1) :
    (b.takeTurn turn).1.matchers = b.rowWith m inserting := by
  obtain ⟨heard, hheard, hturn⟩ := exists_heard hheld hasides hnotices
  have hrow : heard.matchers = b.matchers := hheard.row
  unfold rowWith placeOf?
  rw [hturn, ← hrow]
  cases hmatcher : b.box.matcher with
  | none =>
      cases inserting with
      | true => exact (change_add heard m).row
      | false => exact (change_add heard m).row
  | some old =>
      cases inserting with
      | true => exact matchers_insertBefore heard m old.key
      | false =>
          unfold EditBox.takeKey at hkey
          rw [hmatcher] at hkey
          have hupdate := matchers_update heard m
          rw [show m.key = old.key from hkey] at hupdate
          exact hupdate

/-- A commit in the box puts the candidate into the row. -/
theorem matchers_of_settles
    (h : b.box.Settles b.surroundings b.keys o inserting turn) :
    (b.takeTurn turn).1.matchers = b.rowWith (b.candidateFor o inserting) inserting := by
  have hasides : ∀ n ∈ [Notice.consulted (b.candidateFor o inserting) inserting],
      n.isAside = true := by
    intro n hn
    rw [List.mem_singleton.mp hn]
    rfl
  exact matchers_takeTurn_of_wish h.held hasides h.notices rfl

/-- What the bar does with a key of its own is no edit. -/
theorem command_ne_edit (b : Bar) (p : KeyPress) (r : Reaction) : (b.command p).2 ≠ .edit r := by
  unfold command
  cases p.key with
  | arrowLeft =>
      dsimp only
      split
      · simp
      · split
        · split <;> simp
        · simp
  | arrowRight =>
      dsimp only
      split
      · simp
      · split
        · split <;> simp
        · simp
  | backspace =>
      dsimp only
      split
      · simp
      · split <;> simp
  | enter =>
      dsimp only
      split <;> simp
  | home =>
      dsimp only
      split <;> simp
  | finish =>
      dsimp only
      split <;> simp
  | _ => simp

theorem key_of_edit {p : KeyPress} {r : Reaction} (h : (b.key p).2 = .edit r) :
    (b.box.key b.surroundings b.keys p).answer = r ∧
      (b.key p).1 = (b.takeTurn (b.box.key b.surroundings b.keys p)).1 := by
  by_cases hignored : (b.box.key b.surroundings b.keys p).answer = .ignored
  · rw [key_of_ignored hignored] at h
    exact absurd h (command_ne_edit _ p r)
  · rw [key_of_used hignored] at h ⊢
    exact ⟨KeyResponse.edit.inj h, rfl⟩

/-- A suggestion that is committed was offered, and the box settles on it. -/
theorem Commits.settles (h : b.Commits o inserting b') :
    (∃ slot, b.box.buckets.get? slot = some o) ∧
      ∃ turn, b.box.Settles b.surroundings b.keys o inserting turn ∧
        b' = (b.takeTurn turn).1 := by
  cases h with
  | chosen slot hoption hcommitted =>
      exact ⟨⟨slot, hoption⟩, _, EditBox.settles_select hoption rfl hcommitted, rfl⟩
  | pressed p slot hkey hshift htext hslot hoption hcommitted =>
      subst hshift
      obtain ⟨hanswer, hbar⟩ := key_of_edit hcommitted
      exact ⟨⟨slot, hoption⟩, _, EditBox.settles_key hkey htext hslot hoption rfl hanswer, hbar⟩

/-- What is known of a commit: nothing was said against the candidate, which is now in the row. -/
theorem Commits.result (h : b.Commits o inserting b') :
    b'.matchers = b.rowWith (b.candidateFor o inserting) inserting ∧
      b.surroundings.Clears (b.candidateFor o inserting) inserting := by
  obtain ⟨-, turn, hturn, rfl⟩ := h.settles
  exact ⟨matchers_of_settles hturn, .suggestion o hturn.choice rfl hturn.owner⟩

/-! ### Limits -/

/-- How a candidate that has been judged can be too much for its row nevertheless. -/
inductive Overruns (b : Bar) (m : Matcher) (inserting : Bool) (n : Nat) : Prop
  /-- It goes before the edited matcher and begins a group there; at the end it would have joined
  one, and there is room for no other. -/
  | apart (old : Matcher) (i : Nat) (hheld : b.box.matcher = some old)
      (hplace : b.placeOf? old.key = some i) (hinserting : inserting = true)
      (hjoins : Row.joinsOnlyAtEnd (Row.countsGroups b.config) b.matchers m i = true)
      (hfull : b.selections m.source b.matchers = n)
  /-- It takes the place of the edited matcher, which is not the active one. -/
  | astray (old : Matcher) (i : Nat) (hheld : b.box.matcher = some old)
      (hplace : b.placeOf? old.key = some i) (hinserting : inserting = false)
      (hactive : b.active ≠ some i) (hover : n < b.selections m.source (b.matchers.set i m))
  /-- The edited matcher is gone, so that the row stays as it is, and there was too much in it. -/
  | gone (old : Matcher) (hheld : b.box.matcher = some old) (hplace : b.placeOf? old.key = none)
      (hover : n < b.selections m.source b.matchers)

theorem not_overruns_of_closed (h : b.Closed) : ¬ b.Overruns m inserting n := by
  have hnone : ∀ old, b.box.matcher ≠ some old := by
    intro old hold
    exact absurd (h.held.symm.trans hold) (by simp)
  rintro (⟨old, _, hheld⟩ | ⟨old, _, hheld⟩ | ⟨old, hheld⟩) <;> exact hnone old hheld

theorem overruns_iff_of_gone (hheld : b.box.matcher = some old)
    (hplace : b.placeOf? old.key = none) :
    b.Overruns m inserting n ↔ n < b.selections m.source b.matchers := by
  constructor
  · rintro (⟨old', i, hheld', hplace'⟩ | ⟨old', i, hheld', hplace'⟩ | ⟨_, _, _, hover⟩)
    · obtain rfl := Option.some.inj (hheld.symm.trans hheld')
      exact absurd (hplace.symm.trans hplace') (by simp)
    · obtain rfl := Option.some.inj (hheld.symm.trans hheld')
      exact absurd (hplace.symm.trans hplace') (by simp)
    · exact hover
  · exact .gone old hheld hplace

theorem overruns_iff_of_inserting (hheld : b.box.matcher = some old)
    (hplace : b.placeOf? old.key = some i) : b.Overruns m true n ↔
      Row.joinsOnlyAtEnd (Row.countsGroups b.config) b.matchers m i = true ∧
        b.selections m.source b.matchers = n := by
  constructor
  · rintro (⟨old', i', hheld', hplace', -, hjoins, hfull⟩ | ⟨_, _, _, _, hreplacing⟩ |
      ⟨old', hheld', hplace', -⟩)
    · obtain rfl := Option.some.inj (hheld.symm.trans hheld')
      obtain rfl := Option.some.inj (hplace.symm.trans hplace')
      exact ⟨hjoins, hfull⟩
    · contradiction
    · obtain rfl := Option.some.inj (hheld.symm.trans hheld')
      exact absurd (hplace.symm.trans hplace') (by simp)
  · rintro ⟨hjoins, hfull⟩
    exact .apart old i hheld hplace rfl hjoins hfull

theorem overruns_iff_of_replacing (hheld : b.box.matcher = some old)
    (hplace : b.placeOf? old.key = some i) : b.Overruns m false n ↔
      b.active ≠ some i ∧ n < b.selections m.source (b.matchers.set i m) := by
  constructor
  · rintro (⟨_, _, _, _, hinserting⟩ | ⟨old', i', hheld', hplace', -, hactive, hover⟩ |
      ⟨old', hheld', hplace', -⟩)
    · contradiction
    · obtain rfl := Option.some.inj (hheld.symm.trans hheld')
      obtain rfl := Option.some.inj (hplace.symm.trans hplace')
      exact ⟨hactive, hover⟩
    · obtain rfl := Option.some.inj (hheld.symm.trans hheld')
      exact absurd (hplace.symm.trans hplace') (by simp)
  · rintro ⟨hactive, hover⟩
    exact .astray old i hheld hplace rfl hactive hover

/-- The judged row keeps to the limit. -/
theorem selections_resulting_le (hunmixed : b.config.Unmixed)
    (hclears : b.surroundings.Clears m inserting) (hs : b.config.source? m.source = some s)
    (hlimit : s.selectionLimit = some n) :
    b.selections m.source (Row.resulting m b.matchers (b.replacedBy inserting)) ≤ n := by
  have hobjection := sourceObjection?_of_clears hunmixed hclears hs
  have hle := (Row.sourceObjection?_eq_none_iff.mp hobjection).2 n hlimit
  rw [(Config.of_source? hs).2] at hle
  exact hle

/-- The row that results keeps to the limit if the judged one does, except for what has been
named. -/
theorem selections_rowWith_le_iff (hpaired : b.Paired)
    (hjudged : b.selections m.source
      (Row.resulting m b.matchers (b.replacedBy inserting)) ≤ n) :
    b.selections m.source (b.rowWith m inserting) ≤ n ↔ ¬ b.Overruns m inserting n := by
  unfold rowWith
  rcases hpaired.closed_or_open with hclosed | ⟨a, old, hactive, hheld⟩
  · -- Nothing is edited: the candidate joins the end, as it was judged.
    rw [replacedBy_of_closed hclosed] at hjudged
    rw [hclosed.held]
    exact iff_of_true hjudged (not_overruns_of_closed hclosed)
  · rw [hheld]
    dsimp only
    cases hplace : b.placeOf? old.key with
    | none =>
        rw [overruns_iff_of_gone hheld hplace]
        exact Nat.not_lt.symm
    | some i =>
        obtain ⟨hi, -, -⟩ := List.findIdx?_eq_some_iff_getElem.mp hplace
        cases inserting with
        | true =>
            rw [overruns_iff_of_inserting hheld hplace]
            exact Row.selectionCount_put_le_iff hi hjudged
        | false =>
            rw [overruns_iff_of_replacing hheld hplace]
            by_cases hthere : b.active = some i
            · rw [resulting_of_active hthere hi] at hjudged
              exact iff_of_true hjudged fun hover => hover.1 hthere
            · rw [not_and, Nat.not_lt]
              exact ⟨fun hle _ => hle, fun h => h hthere⟩

/-- **When a committed option keeps to the limit of its source**: always, except where what results
is not what was judged, in one of three ways. -/
theorem committed_within_limit_iff (h : Reachable b) (hunmixed : b.config.Unmixed)
    (hcommits : b.Commits o inserting b') (hs : b.config.source? o.source = some s)
    (hlimit : s.selectionLimit = some n) : b.selections o.source b'.matchers ≤ n ↔
      ¬ b.Overruns (b.candidateFor o inserting) inserting n := by
  obtain ⟨hrow, hclears⟩ := hcommits.result
  have hjudged := selections_resulting_le hunmixed hclears hs hlimit
  rw [hrow]
  exact selections_rowWith_le_iff (paired_reachable h) hjudged

/-- **As long as the keys are taken care of, limits are kept** where matchers count for themselves,
and by all that does not go before another matcher. -/
theorem not_overruns_of_tended (h : Tended b)
    (hplain : Row.countsGroups b.config = false ∨ inserting = false) :
    ¬ b.Overruns m inserting n := by
  rcases h.inStep with hclosed | ⟨a, old, hactive, hplaced, hheld⟩
  · exact not_overruns_of_closed hclosed
  · have hplace : b.placeOf? old.key = some a :=
      RowChange.findIdx?_key h.keysApart.distinct hplaced
    cases inserting with
    | true =>
        rw [overruns_iff_of_inserting hheld hplace]
        rw [hplain.resolve_right (by simp)]
        rintro ⟨hjoins, -⟩
        contradiction
    | false =>
        rw [overruns_iff_of_replacing hheld hplace]
        exact fun hover => hover.1 hactive

/-- A source of colours, of which only one group may be selected. -/
def colours : Source where
  name := "colour"
  title := "Colours"
  comparisons := ["=", "!"]
  selectionLimit := some 1
  definitions := [.list { supply := .items [.text "red", .text "green", .text "blue"] }]

/-- A bar with a group of two colours, whose first one is edited: blue is offered. -/
def oneGroup : Bar :=
  (Bar.new { Config.ofSources [colours] with limitPolicy := .orGroup } 0).run
    [.input "red", .key { key := .enter }, .input "or green", .key { key := .enter }, .select 0,
      .input "or blue"]

/-- What is offered for blue. -/
def blue : Suggestion := { text := "blue", value := .text "blue", source := "colour" }

theorem homegrown_oneGroup : Homegrown oneGroup :=
  Homegrown.run (.built (.new ..) rfl) (by decide)

theorem reachable_oneGroup : Reachable oneGroup := (Reachable.new ..).run _

theorem unmixed_oneGroup : oneGroup.config.Unmixed where
  names := by decide +kernel
  comparisons := by decide +kernel

/-- In the place of the first colour, blue belongs to the group. -/
theorem committed_within_limit_iff_replacing :
    let b := (oneGroup.choose 0 false).1
    oneGroup.Reachable ∧ oneGroup.config.Unmixed ∧ oneGroup.Commits blue false b ∧
      b.matchers.map (·.text) = ["blue", "green"] ∧
      ¬ oneGroup.Overruns (oneGroup.candidateFor blue false) false 1 ∧
      oneGroup.selections "colour" b.matchers ≤ 1 := by
  intro b
  have hcommits : oneGroup.Commits blue false b :=
    .chosen 0 (by decide +kernel) (by decide +kernel)
  have hkeeps : ¬ oneGroup.Overruns (oneGroup.candidateFor blue false) false 1 :=
    not_overruns_of_tended homegrown_oneGroup.tended (Or.inr rfl)
  refine ⟨reachable_oneGroup, unmixed_oneGroup, hcommits, by decide +kernel, hkeeps, ?_⟩
  exact (committed_within_limit_iff reachable_oneGroup unmixed_oneGroup hcommits
    (show oneGroup.config.source? blue.source = some colours from rfl) rfl).mpr hkeeps

/-- **A committed option can be one too many**: put in before the first colour, blue is no part of
the group, but it would have been at the end. -/
theorem committed_beyond_limit_apart :
    let b := (oneGroup.choose 0 true).1
    oneGroup.Reachable ∧ oneGroup.config.Unmixed ∧ oneGroup.Commits blue true b ∧
      oneGroup.config.source? blue.source = some colours ∧ colours.selectionLimit = some 1 ∧
      b.matchers.map (·.text) = ["blue", "red", "green"] ∧
      oneGroup.selections "colour" b.matchers = 2 := by
  refine ⟨reachable_oneGroup, unmixed_oneGroup, ?_, rfl, rfl, by decide +kernel,
    by decide +kernel⟩
  exact .chosen 0 (by decide +kernel) (by decide +kernel)

/-- A source beside the colours. -/
def shapes : Source where
  name := "shape"
  title := "Shapes"
  comparisons := ["="]

/-- A bar that edits a shape, in whose place a colour has come from outside: blue is offered. -/
def goneAstray : Bar :=
  let shape : Matcher :=
    { key := "a", operator := .and, comparison := "=", source := "shape", value := .text "round"
      text := "round" }
  ((Bar.new (.ofSources [colours, shapes]) 0).withMatchers [shape]).run
    [.select 0, .sync [colour "b" "red", shape], .input "blue"]

/-- **So it can when it is not judged for its place**: blue is judged to replace the red one, and
replaces the shape. -/
theorem committed_beyond_limit_astray :
    let b := (goneAstray.choose 0 false).1
    goneAstray.Reachable ∧ goneAstray.Commits blue false b ∧
      goneAstray.config.source? blue.source = some colours ∧
      b.matchers.map (·.text) = ["red", "blue"] ∧
      goneAstray.selections "colour" b.matchers = 2 := by
  refine ⟨?_, ?_, rfl, by decide +kernel, by decide +kernel⟩
  · exact (Reachable.equip (.new ..) (.matchers _)).run _
  · exact .chosen 0 (by decide +kernel) (by decide +kernel)

end QueryBar.Bar
