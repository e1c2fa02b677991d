/-
A commit changes the row at one place.

What is confirmed in the open box, whether it is picked, entered, typed as a bracket or given as
free text, comes to a single wish of the box (`EditBox.Confirms`): one matcher is to join the row
under a key of its own, or to take the place of the edited matcher under its key.  By the time the
bar acts on it the box may have been emptied, and other notices may have been acted on, but neither
the row nor which matcher is open has changed.

In a bar whose keys are taken care of, the edited matcher is the one at the active place and no
other has its key, so that it is found there and nowhere else.  The wish is then carried out at
that place, or at the end of the row where nothing is edited.
-/
import QueryBar.Proofs.Bar.Identity

namespace QueryBar

/-! ### What a turn of the box confirms -/

namespace EditBox

/-- After asides at most, the turn wishes one matcher into the row, before the edited one if it is
`inserting` and in its place otherwise, under a key that goes with that. -/
structure Confirms {α : Type} (e : EditBox) (keys : KeySupply) (inserting : Bool) (turn : Turn α) :
    Prop where
  held : turn.box.matcher = e.matcher
  wish : ∃ asides m, (∀ n ∈ asides, n.isAside = true) ∧
    turn.notices = asides ++ [if inserting then Notice.insert m else .changed (some m)] ∧
    m.key = (e.takeKey inserting keys).1

variable {α β : Type} {e e' : EditBox} {around : Surroundings} {keys : KeySupply}
  {inserting shift : Bool} {slot : Nat} {choice : Choice} {bracket : Bracket} {text : String}
  {turn : Turn Reaction}

/-- Asides before it make no difference, nor does anything about the box but its matcher. -/
theorem Confirms.prepend {taken : Turn α} {turn : Turn β} (asides : List Notice)
    (h : e'.Confirms keys inserting taken) (hheld : e'.matcher = e.matcher)
    (hbox : turn.box.matcher = taken.box.matcher) (hasides : ∀ n ∈ asides, n.isAside = true)
    (hnotices : turn.notices = asides ++ taken.notices) : e.Confirms keys inserting turn := by
  obtain ⟨more, m, hmore, hwish, hkey⟩ := h.wish
  refine ⟨hbox.trans (h.held.trans hheld), asides ++ more, m, ?_, ?_, ?_⟩
  · intro n hn
    rcases List.mem_append.mp hn with hn | hn
    · exact hasides n hn
    · exact hmore n hn
  · rw [hnotices, hwish, List.append_assoc]
  · unfold takeKey at hkey ⊢
    rw [← hheld]
    exact hkey

theorem Confirms.congr {taken : Turn α} {turn : Turn β} (h : e'.Confirms keys inserting taken)
    (hheld : e'.matcher = e.matcher) (hbox : turn.box.matcher = taken.box.matcher)
    (hnotices : turn.notices = taken.notices) : e.Confirms keys inserting turn :=
  h.prepend [] hheld hbox (by simp) hnotices

theorem confirms_commit (hturn : e.commit around keys choice inserting = turn)
    (h : turn.answer = .committed) : e.Confirms keys inserting turn := by
  have hconsulted : ∀ m, ∀ n ∈ [Notice.consulted m inserting], n.isAside = true := by
    intro m n hn
    rw [List.mem_singleton.mp hn]
    rfl
  unfold commit at hturn
  dsimp only at hturn
  split at hturn
  · subst hturn
    contradiction
  · split at hturn
    · subst hturn
      contradiction
    · subst hturn
      cases inserting with
      | true => exact ⟨rfl, [_], _, hconsulted _, rfl, e.key_become keys _ choice true⟩
      | false => exact ⟨rfl, [_], _, hconsulted _, rfl, e.key_become keys _ choice false⟩

/-- A slot that is reported as committed is confirmed. -/
theorem confirms_select (hturn : e.select around keys slot inserting = turn)
    (h : turn.answer = .committed) : e.Confirms keys inserting turn := by
  unfold select at hturn
  split at hturn
  · subst hturn
    contradiction
  · split at hturn
    · split at hturn <;> subst hturn <;> contradiction
    · exact confirms_commit hturn h

theorem confirms_commitFreeText (hturn : e.commitFreeText keys = turn)
    (h : turn.answer = .committed) : e.Confirms keys false turn := by
  unfold commitFreeText at hturn
  split at hturn
  · subst hturn
    exact ⟨rfl, [], _, by simp, rfl, rfl⟩
  · subst hturn
    contradiction

theorem answer_leave (e : EditBox) (keys : KeySupply) : (e.leave keys).answer ≠ .committed := by
  unfold leave
  split
  · split <;> simp
  · simp

/-- Free text takes the place of the edited matcher, with or without shift. -/
theorem confirms_onEnter (hturn : e.onEnter around keys shift = turn)
    (h : turn.answer = .committed) : e.Confirms keys (shift && !e.isQuoted) turn := by
  unfold onEnter at hturn
  split at hturn
  · rename_i hquoted
    rw [show e.isQuoted = true from hquoted, Bool.not_true, Bool.and_false]
    exact confirms_commitFreeText hturn h
  · rename_i hplain
    rw [show e.isQuoted = false from Bool.eq_false_iff.mpr hplain, Bool.not_false, Bool.and_true]
    split at hturn
    · dsimp only at hturn
      split at hturn
      · subst hturn
        contradiction
      · exact confirms_select hturn h
    · subst hturn
      exact absurd h (e.answer_leave keys)

/-- **What is reported as committed by enter or tab is confirmed.** -/
theorem confirms_key {p : KeyPress} (hkey : p.key = .enter ∨ p.key = .tab)
    (hturn : e.key around keys p = turn) (h : turn.answer = .committed) :
    e.Confirms keys (p.shift && !e.isQuoted) turn := by
  obtain ⟨outcome, hconfirmed⟩ := e.key_of_confirming around keys hkey
  rw [hconfirmed] at hturn
  subst hturn
  -- The error and the outcome of the last key are gone by now, which makes no difference here.
  exact (confirms_onEnter rfl h).congr rfl rfl rfl

/-! ### Brackets -/

/-- A bracket that is typed is accepted: it goes before the edited matcher, or the owner has no
objection to it. -/
def Accepts (e : EditBox) (around : Surroundings) (keys : KeySupply) (text : String)
    (bracket : Bracket) : Prop :=
  e.precedes bracket = true ∨ around.objection?
    ((e.holding around text).become around.config keys (.bracket bracket) false) false = none

theorem confirms_takeBracket
    (h : e.precedes bracket = true ∨
      around.objection? (e.become around.config keys (.bracket bracket) false) false = none) :
    e.Confirms keys (e.precedes bracket) (e.takeBracket around keys bracket) := by
  unfold takeBracket
  split
  · rename_i hother
    rw [show e.precedes bracket = true from hother]
    exact ⟨e.matcher_reopen _, [], _, by simp, rfl, by rw [takeKey_insert]; rfl⟩
  · rename_i hsame
    have hsame : e.precedes bracket = false := Bool.eq_false_iff.mpr hsame
    rw [hsame] at h ⊢
    have howner := h.resolve_left Bool.false_ne_true
    refine confirms_commit rfl ?_
    unfold become at howner
    unfold commit
    simp only [Choice.objection?, howner, Bool.false_eq_true, if_false]

/-- **A bracket that is accepted is confirmed.** -/
theorem confirms_typeText
    (h : (Tokens.ofText around.config around.function text).bracket = some bracket)
    (haccepts : e.Accepts around keys text bracket) :
    e.Confirms keys (e.precedes bracket) (e.typeText around keys text) := by
  obtain ⟨typed, asides, hbox, hasides, htaken, -, hnotices⟩ := e.typeText_holding around keys h
  have hprecedes : typed.precedes bracket = e.precedes bracket := hbox.precedes bracket
  have hconfirms : typed.Confirms keys (typed.precedes bracket)
      (typed.takeBracket around keys bracket) := by
    refine confirms_takeBracket ?_
    rw [hprecedes, hbox.become]
    exact haccepts
  rw [hprecedes] at hconfirms
  refine hconfirms.prepend asides hbox.matcher (congrArg EditBox.matcher htaken) ?_ hnotices
  intro n hn
  rw [hasides n hn]
  rfl

/-- What comes of a bracket that is not accepted does not concern the row. -/
theorem notices_typeText_of_refused
    (h : (Tokens.ofText around.config around.function text).bracket = some bracket)
    (hrefused : ¬ e.Accepts around keys text bracket) :
    ∀ n ∈ (e.typeText around keys text).notices, n.isAside = true := by
  obtain ⟨typed, asides, hbox, hasides, -, -, hnotices⟩ := e.typeText_holding around keys h
  unfold Accepts at hrefused
  rw [not_or, ← hbox.become] at hrefused
  obtain ⟨hsame, howner⟩ := hrefused
  obtain ⟨objection, hobjection⟩ := Option.ne_none_iff_exists'.mp howner
  have hprecedes : typed.precedes bracket = e.precedes bracket := hbox.precedes bracket
  have htaken : (typed.takeBracket around keys bracket).notices
      = [.consulted (typed.become around.config keys (.bracket bracket) false) false] := by
    unfold takeBracket
    rw [if_neg (by rw [show typed.matcher.any _ = e.precedes bracket from hprecedes]; exact hsame)]
    unfold become at hobjection
    unfold commit
    simp only [Choice.objection?, hobjection]
    rfl
  intro n hn
  rw [hnotices, htaken] at hn
  rcases List.mem_append.mp hn with hn | hn
  · rw [hasides n hn]
    rfl
  · rw [List.mem_singleton.mp hn]
    rfl

end EditBox

namespace Bar

variable {b : Bar} {operation : Operation} {inserting : Bool} {m old : Matcher} {i : Nat}
  {α : Type} {turn : Turn α}

/-! ### What the bar makes of it -/

/-- When the bar comes to the wish, neither the row nor what is open has changed. -/
theorem takeTurn_of_confirms (h : b.box.Confirms b.keys inserting turn) :
    ∃ heard m, heard.matchers = b.matchers ∧ b.KeepsOpen heard ∧
      m.key = (b.box.takeKey inserting b.keys).1 ∧
      (b.takeTurn turn).1 = heed (b.box.matcher.map (·.key)) heard
        (if inserting then .insert m else .changed (some m)) := by
  obtain ⟨asides, m, hasides, hwish, hkey⟩ := h.wish
  obtain ⟨heard, hheard, hturn⟩ := exists_heard h.held hasides hwish
  exact ⟨heard, m, hheard.row, ⟨hheard.active, hheard.held⟩, hkey, hturn⟩

/-- Where nothing is edited, what is confirmed joins the end of the row. -/
theorem takeTurn_of_closed (h : b.box.Confirms b.keys inserting turn) (hclosed : b.Closed) :
    ∃ m, m.key = b.keys.next ∧ (b.takeTurn turn).1.matchers = b.matchers ++ [m] ∧
      (b.takeTurn turn).1.Closed := by
  obtain ⟨heard, m, hrow, hkept, hkey, hturn⟩ := takeTurn_of_confirms h
  have hjoins : (b.takeTurn turn).1 = heard.add m := by
    rw [hturn, hclosed.held]
    cases inserting with
    | true => rfl
    | false => rfl
  have hchange := change_add heard m
  refine ⟨m, ?_, ?_, ?_⟩
  · unfold EditBox.takeKey at hkey
    rw [hclosed.held] at hkey
    exact hkey
  · rw [hjoins, hchange.row, hrow]
    rfl
  · rw [hjoins]
    exact (hkept.trans hchange.opened).closed hclosed

/-- What is confirmed in an edit takes the place of the edited matcher, and the edit is closed. -/
theorem takeTurn_of_replacing (h : b.box.Confirms b.keys false turn)
    (hheld : b.box.matcher = some old) (hplace : b.placeOf? old.key = some i) :
    ∃ m, m.key = old.key ∧ (b.takeTurn turn).1.matchers = b.matchers.set i m ∧
      (b.takeTurn turn).1.Closed := by
  obtain ⟨heard, m, hrow, hkept, hkey, hturn⟩ := takeTurn_of_confirms h
  have hsame : m.key = old.key := by
    unfold EditBox.takeKey at hkey
    rw [hheld] at hkey
    exact hkey
  have hfound : heard.placeOf? m.key = some i := by
    unfold placeOf? at hplace ⊢
    rw [hrow, hsame]
    exact hplace
  have hupdates : (b.takeTurn turn).1 = (heard.update m).1 := by
    rw [hturn, hheld]
    rfl
  have hchange := change_update_of_place hfound
  refine ⟨m, hsame, ?_, ?_⟩
  · rw [hupdates, hchange.row, hrow]
    rfl
  · rw [hupdates]
    exact hchange.opened.2

/-- What is to go before the edited matcher is put in there, and the edited matcher stays open. -/
theorem takeTurn_of_inserting (h : b.box.Confirms b.keys true turn)
    (hheld : b.box.matcher = some old) (hplace : b.placeOf? old.key = some i)
    (hactive : b.active = some i) :
    ∃ m, m.key = b.keys.next ∧
      (b.takeTurn turn).1.matchers = b.matchers.take i ++ m :: b.matchers.drop i ∧
      (b.takeTurn turn).1.active = some (i + 1) ∧
      (b.takeTurn turn).1.box.matcher = some old := by
  obtain ⟨heard, m, hrow, hkept, hkey, hturn⟩ := takeTurn_of_confirms h
  have hfound : heard.placeOf? old.key = some i := by
    unfold placeOf? at hplace ⊢
    rw [hrow]
    exact hplace
  obtain ⟨left, hinsert, hchange⟩ := change_insertBefore_of_place (m := m) hfound
  have hputs : (b.takeTurn turn).1 = left := by
    rw [hturn, hheld]
    show (heard.insertBefore m (some old.key)).toOption.getD heard = left
    rw [hinsert]
    rfl
  obtain ⟨-, hmoved, hstays⟩ := hchange.opened
  rw [EditBox.takeKey_insert] at hkey
  refine ⟨m, hkey, ?_, ?_, ?_⟩
  · rw [hputs, hchange.row, hrow]
    rfl
  · rw [hputs, hmoved, hkept.active, hactive, Option.map_some, if_pos (Nat.le_refl i)]
  · rw [hputs, hstays, hkept.held, hheld]

/-! ### Commits -/

/-- Something is committed in the open box: a slot is picked, enter or tab confirms what there is to
confirm, or a bracket is typed.  It is `inserting` if it is to go before the edited matcher. -/
inductive Confirmed (b : Bar) : Operation → Bool → Prop
  | chosen (slot : Nat) (inserting : Bool)
      (hcommitted : (b.choose slot inserting).2 = .committed) :
      Confirmed b (.choose slot inserting) inserting
  | pressed (p : KeyPress) (hkey : p.key = .enter ∨ p.key = .tab)
      (hcommitted : (b.key p).2 = .edit .committed) :
      Confirmed b (.key p) (p.shift && !b.box.isQuoted)
  | typed (text : String) (bracket : Bracket)
      (hbracket : (Tokens.ofText b.config b.function text).bracket = some bracket)
      (haccepts : b.box.Accepts b.surroundings b.keys text bracket) :
      Confirmed b (.input text) (b.box.precedes bracket)

/-- However something is committed, it is by a turn of the box that confirms it. -/
theorem Confirmed.exists_turn (h : b.Confirmed operation inserting) :
    ∃ (α : Type) (turn : Turn α), b.box.Confirms b.keys inserting turn ∧
      (b.perform operation).1 = (b.takeTurn turn).1 := by
  cases h with
  | chosen slot inserting hcommitted =>
      exact ⟨_, _, EditBox.confirms_select rfl hcommitted, rfl⟩
  | pressed p hkey hcommitted =>
      obtain ⟨hanswer, hbar⟩ := key_of_edit hcommitted
      exact ⟨_, _, EditBox.confirms_key hkey rfl hanswer, hbar⟩
  | typed text bracket hbracket haccepts =>
      exact ⟨_, _, EditBox.confirms_typeText hbracket haccepts, rfl⟩

theorem Confirmed.own (h : b.Confirmed operation inserting) : operation.handsOver = false := by
  cases h <;> rfl

/-- A bracket that is not accepted leaves the row as it is. -/
theorem matchers_input_of_refused {text : String} {bracket : Bracket}
    (hbracket : (Tokens.ofText b.config b.function text).bracket = some bracket)
    (hrefused : ¬ b.box.Accepts b.surroundings b.keys text bracket) :
    (b.input text).1.matchers = b.matchers := by
  have hasides := EditBox.notices_typeText_of_refused hbracket hrefused
  exact (alike_foldl_heed hasides _ _).row

/-- No matcher of the row has the key that is drawn next. -/
theorem KeysApart.next_fresh (h : b.KeysApart) : b.keys.next ∉ b.matchers.map (·.key) := by
  intro hmem
  obtain ⟨m, hm, hkey⟩ := List.mem_map.mp hmem
  exact h.unowed m hm (hkey ▸ b.keys.owes_next)

/-- **A commit changes the row at exactly one place.**  Where nothing is edited, a new matcher joins
the end.  Otherwise the edited matcher, which stands at the active place, is replaced under its key
and the edit closed; or else a new one goes right before it, and it stays open as it was.  Keys are
apart as before. -/
theorem commit_changes_one_place (h : Tended b) (hconfirmed : b.Confirmed operation inserting) :
    let b' := (b.perform operation).1
    (b'.matchers.map (·.key)).Nodup ∧
      (b.active = none → ∃ m, m.key ∉ b.matchers.map (·.key) ∧
        b'.matchers = b.matchers ++ [m] ∧ b'.active = none ∧ b'.box.matcher = none) ∧
      ∀ i, b.active = some i → ∃ old, b.matchers[i]? = some old ∧ b.box.matcher = some old ∧
        (inserting = false → ∃ m, m.key = old.key ∧ b'.matchers = b.matchers.set i m ∧
          b'.active = none ∧ b'.box.matcher = none) ∧
        (inserting = true → ∃ m, m.key ∉ b.matchers.map (·.key) ∧
          b'.matchers = b.matchers.take i ++ m :: b.matchers.drop i ∧
          b'.active = some (i + 1) ∧ b'.matchers[i + 1]? = some old ∧
          b'.box.matcher = some old) := by
  intro b'
  have hkeys := h.keysApart
  have hafter : Tended b' := h.step operation (welcomes_of_own hconfirmed.own)
  obtain ⟨α, turn, hconfirms, hturn⟩ := hconfirmed.exists_turn
  have hb' : b' = (b.takeTurn turn).1 := hturn
  refine ⟨hafter.keysApart.distinct, ?_, ?_⟩
  · intro hactive
    rcases h.inStep with hclosed | ⟨i, old, hopen, -, -⟩
    · obtain ⟨m, hkey, hrow, hstays⟩ := takeTurn_of_closed hconfirms hclosed
      rw [← hb'] at hrow hstays
      exact ⟨m, hkey ▸ hkeys.next_fresh, hrow, hstays.active, hstays.held⟩
    · exact absurd (hactive.symm.trans hopen) (by simp)
  · intro i hactive
    rcases h.inStep with hclosed | ⟨place, old, hopen, hplaced, hheld⟩
    · exact absurd (hclosed.active.symm.trans hactive) (by simp)
    · obtain rfl := Option.some.inj (hactive.symm.trans hopen)
      have hplace : b.placeOf? old.key = some i := RowChange.findIdx?_key hkeys.distinct hplaced
      refine ⟨old, hplaced, hheld, ?_, ?_⟩
      · rintro rfl
        obtain ⟨m, hkey, hrow, hclosed⟩ := takeTurn_of_replacing hconfirms hheld hplace
        rw [← hb'] at hrow hclosed
        exact ⟨m, hkey, hrow, hclosed.active, hclosed.held⟩
      · rintro rfl
        obtain ⟨m, hkey, hrow, hmoved, hstays⟩ :=
          takeTurn_of_inserting hconfirms hheld hplace hactive
        rw [← hb'] at hrow hmoved hstays
        refine ⟨m, hkey ▸ hkeys.next_fresh, hrow, hmoved, ?_, hstays⟩
        have hi : i < b.matchers.length := (List.getElem?_eq_some_iff.mp hplaced).1
        have hput := RowChange.getElem?_put (m := m) (a := i) (Nat.le_of_lt hi)
        rw [if_pos (Nat.le_refl i)] at hput
        rw [hrow]
        exact hput.trans hplaced

/-- Blue is put in before the green that is edited. -/
theorem commit_changes_one_place_paintbox :
    let b := paintbox.run [.select 1, .input "blue"]
    let b' := (b.choose 0 true).1
    b.Tended ∧ b.Confirmed (.choose 0 true) true ∧ b.active = some 1 ∧
      b'.matchers.map (·.text) = ["red", "blue", "green"] ∧
      ∃ m, m.key ∉ b.matchers.map (·.key) ∧
        b'.matchers = b.matchers.take 1 ++ m :: b.matchers.drop 1 ∧ b'.active = some 2 := by
  intro b b'
  have htended : b.Tended := tended_paintbox.run (by decide)
  have hconfirmed : b.Confirmed (.choose 0 true) true := .chosen 0 true (by decide +kernel)
  have hactive : b.active = some 1 := by decide +kernel
  obtain ⟨-, -, hedited⟩ := commit_changes_one_place htended hconfirmed
  obtain ⟨old, -, -, -, hinserted⟩ := hedited 1 hactive
  obtain ⟨m, hfresh, hrow, hmoved, -, -⟩ := hinserted rfl
  exact ⟨htended, hconfirmed, hactive, by decide +kernel, m, hfresh, hrow, hmoved⟩

end Bar

end QueryBar
