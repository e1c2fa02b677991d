/-
What committing a suggestion comes to.

A suggestion is committed by picking its slot, or by enter or tab on the highlighted one.
Whenever that is reported as committed, nothing was said against the candidate, the box is
still about the same matcher, and the candidate is all that it wants of its owner.
-/
import QueryBar.EditBox.Keys

namespace QueryBar.EditBox

variable {e : EditBox} {around : Surroundings} {keys : KeySupply} {o : Suggestion}
  {inserting : Bool} {slot : Nat} {turn turn' : Turn Reaction}

/-- The matcher that a suggestion is to become. -/
def candidateFor (e : EditBox) (c : Config) (keys : KeySupply) (o : Suggestion)
    (inserting : Bool) : Matcher :=
  e.candidate c (e.takeKey inserting keys).1 (.suggestion o)

/-- The suggestion is committed in a turn of the box. -/
structure Settles (e : EditBox) (around : Surroundings) (keys : KeySupply) (o : Suggestion)
    (inserting : Bool) (turn : Turn Reaction) : Prop where
  held : turn.box.matcher = e.matcher
  notices : turn.notices =
    let m := e.candidateFor around.config keys o inserting
    [.consulted m inserting, if inserting then .insert m else .changed (some m)]
  choice : (Choice.suggestion o).objection? around.config
    (e.candidateFor around.config keys o inserting) = none
  owner : around.objection? (e.candidateFor around.config keys o inserting) inserting = none
  plain : o.isFunction = false

/-- Nothing else that there is to a box decides what a suggestion is committed as. -/
theorem Settles.congr {e' : EditBox} (h : e'.Settles around keys o inserting turn')
    (hheld : e'.matcher = e.matcher) (hoperator : e'.operator = e.operator)
    (hcomparison : e'.comparison = e.comparison) (hbox : turn.box.matcher = turn'.box.matcher)
    (hnotices : turn.notices = turn'.notices) : e.Settles around keys o inserting turn := by
  have hcandidate : e'.candidateFor around.config keys o inserting =
      e.candidateFor around.config keys o inserting := by
    unfold candidateFor candidate takeKey
    rw [hheld, hoperator, hcomparison]
  have hchoice := h.choice
  have howner := h.owner
  have hnotices' := h.notices
  rw [hcandidate] at hchoice howner hnotices'
  exact ⟨hbox.trans (h.held.trans hheld), hnotices.trans hnotices', hchoice, howner, h.plain⟩

theorem settles_commit (hplain : o.isFunction = false)
    (hturn : e.commit around keys (.suggestion o) inserting = turn)
    (h : turn.answer = .committed) : e.Settles around keys o inserting turn := by
  unfold commit at hturn
  dsimp only at hturn
  split at hturn
  · subst hturn
    contradiction
  · rename_i hchoice
    split at hturn
    · subst hturn
      contradiction
    · rename_i howner
      subst hturn
      cases inserting with
      | true => exact ⟨rfl, rfl, hchoice, howner, hplain⟩
      | false => exact ⟨rfl, rfl, hchoice, howner, hplain⟩

/-- A slot that is reported as committed holds no function. -/
theorem settles_select (hoption : e.buckets.get? slot = some o)
    (hturn : e.select around keys slot inserting = turn) (h : turn.answer = .committed) :
    e.Settles around keys o inserting turn := by
  unfold select at hturn
  rw [hoption] at hturn
  dsimp only at hturn
  split at hturn
  · split at hturn <;> subst hturn <;> contradiction
  · rename_i hplain
    exact settles_commit (Bool.eq_false_iff.mpr hplain) hturn h

theorem settles_onEnter (htext : freeTextMark.toList.isPrefixOf e.text.toList = false)
    (hslot : e.highlighted = some slot) (hoption : e.buckets.get? slot = some o)
    (hturn : e.onEnter around keys inserting = turn) (h : turn.answer = .committed) :
    e.Settles around keys o inserting turn := by
  unfold onEnter at hturn
  rw [if_neg (by simp [htext]), hslot] at hturn
  split at hturn
  · rename_i hslot'
    obtain rfl := Option.some.inj hslot'
    dsimp only at hturn
    split at hturn
    · subst hturn
      contradiction
    · exact settles_select hoption hturn h
  · rename_i hnothing
    cases hbuckets : e.buckets with
    | nil =>
        rw [hbuckets] at hoption
        contradiction
    | cons bucket rest => exact absurd rfl (hnothing bucket rest slot hbuckets)

/-- Enter and tab confirm. -/
theorem react_of_confirming (e : EditBox) (around : Surroundings) (keys : KeySupply) {p : KeyPress}
    (hkey : p.key = .enter ∨ p.key = .tab) :
    e.react around keys p = e.onEnter around keys p.shift := by
  unfold react
  rcases hkey with hkey | hkey <;> rw [hkey]

/-- What is noted of a confirming key afterwards is only how it ended. -/
theorem key_of_confirming (e : EditBox) (around : Surroundings) (keys : KeySupply) {p : KeyPress}
    (hkey : p.key = .enter ∨ p.key = .tab) :
    let turn := onEnter { e with error := none, outcome := none } around keys p.shift
    ∃ outcome, e.key around keys p = { turn with box := { turn.box with outcome } } := by
  intro turn
  unfold key
  dsimp only
  rw [react_of_confirming _ around keys hkey]
  split
  · exact ⟨_, rfl⟩
  · exact ⟨turn.box.outcome, rfl⟩

/-- **Enter and tab commit the highlighted suggestion.** -/
theorem settles_key {p : KeyPress} (hkey : p.key = .enter ∨ p.key = .tab)
    (htext : freeTextMark.toList.isPrefixOf e.text.toList = false)
    (hslot : e.highlighted = some slot) (hoption : e.buckets.get? slot = some o)
    (hturn : e.key around keys p = turn) (h : turn.answer = .committed) :
    e.Settles around keys o p.shift turn := by
  have hentered : ∀ cleared : EditBox, cleared = { e with error := none, outcome := none } →
      (cleared.onEnter around keys p.shift).answer = .committed →
      cleared.Settles around keys o p.shift (cleared.onEnter around keys p.shift) := by
    rintro cleared rfl
    exact settles_onEnter htext hslot hoption rfl
  obtain ⟨outcome, hconfirmed⟩ := e.key_of_confirming around keys hkey
  rw [hconfirmed] at hturn
  subst hturn
  exact (hentered _ rfl h).congr rfl rfl rfl rfl rfl

end QueryBar.EditBox
