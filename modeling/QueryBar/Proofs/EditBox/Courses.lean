/-
What a turn of a box can come to.

`Course` lists the outcomes of picking a slot, of a key, of a bracket and of free text: the box
afterwards, the supply of keys, the notices word for word and the answer.  Whatever is claimed
of a turn is then a matter of going through the list once, and nothing below it has to be opened
again.

A matcher that a turn wishes into the row has either been put to the owner right before, or it
comes unasked: a bracket that goes before the edited matcher, and free text.  Which of the two
it is depends on the box and on what is done to it, not on what comes of it, and a course says
so.
-/
import QueryBar.Proofs.EditBox.Frame

namespace QueryBar

/-- The matcher that a notice wishes into the row. -/
def Notice.incoming? : Notice → Option Matcher
  | .changed m => m
  | .insert m => some m
  | _ => none

namespace EditBox

/-- A notice that only asks the owner to turn elsewhere.  The function is to go only where nothing
has been typed. -/
def Turns (e : EditBox) : Notice → Prop
  | .editPrevious _ | .editNext | .focus | .cancel => True
  | .deleteFunction => e.text.isEmpty = true
  | _ => False

/-- The matcher that a choice is to become. -/
def become (e : EditBox) (c : Config) (keys : KeySupply) (choice : Choice) (insert : Bool) :
    Matcher := e.candidate c (e.takeKey insert keys).1 choice

/-- The bracket goes before the edited matcher, unless it is the one that is edited. -/
def precedes (e : EditBox) (b : Bracket) : Bool := e.matcher.any (·.comparison != b.symbol)

/-- What is in the box is marked as free text. -/
def isQuoted (e : EditBox) : Bool := freeTextMark.toList.isPrefixOf e.text.toList

/-- **What a turn can come to.**  `asked` says whether the owner is asked about what is wished into
the row. -/
inductive Course (e : EditBox) (around : Surroundings) (keys : KeySupply) (asked : Bool) :
    Turn Reaction → Prop
  /-- Nothing is wanted of the owner. -/
  | quiet {e' : EditBox} {answer : Reaction} (hbox : e.Resembles e') :
      Course e around keys asked ⟨e', keys, [], answer⟩
  /-- The box is emptied, which is no concern of the owner. -/
  | emptied {e' : EditBox} (hbox : e.reset.Resembles e') :
      Course e around keys asked ⟨e', keys, [], .cancelled⟩
  | turned {e' : EditBox} {n : Notice} {answer : Reaction} (hbox : e.Resembles e')
      (hn : e.Turns n) (hanswer : answer ≠ .ignored) :
      Course e around keys asked ⟨e', keys, [n], answer⟩
  /-- The edited matcher is to go. -/
  | cleared {e' : EditBox} (hbox : e.reset.Resembles e') :
      Course e around keys asked ⟨e', keys, [.changed none], .cancelled⟩
  | function {e' : EditBox} {slot : Nat} {o : Suggestion} {f : QueryFunction}
      (hbox : e.reset.Resembles e') (hoption : e.buckets.get? slot = some o)
      (hfunction : o.isFunction = true) (hnamed : around.config.function? o.text = some f) :
      Course e around keys asked ⟨e', keys, [.setFunction f], .handled⟩
  /-- The comparison was objected to, and the owner not even asked. -/
  | refused {e' : EditBox} {insert : Bool} (hbox : e.Resembles e') :
      Course e around keys asked ⟨e', (e.takeKey insert keys).2, [], .handled⟩
  /-- The owner was asked, and objected. -/
  | objected {e' : EditBox} {choice : Choice} {insert : Bool} (hbox : e.Resembles e') :
      Course e around keys asked ⟨e', (e.takeKey insert keys).2,
        [.consulted (e.become around.config keys choice insert) insert], .handled⟩
  | committed {e' : EditBox} {choice : Choice} (hbox : e.reset.Resembles e')
      (hchoice : choice.objection? around.config
        (e.become around.config keys choice false) = none)
      (howner : around.objection? (e.become around.config keys choice false) false = none)
      (hasked : asked = true) :
      Course e around keys asked ⟨e', (e.takeKey false keys).2,
        [.consulted (e.become around.config keys choice false) false,
          .changed (some (e.become around.config keys choice false))], .committed⟩
  | inserted {e' : EditBox} {choice : Choice} (hbox : e.Resembles e')
      (hchoice : choice.objection? around.config
        (e.become around.config keys choice true) = none)
      (howner : around.objection? (e.become around.config keys choice true) true = none)
      (hasked : asked = true) :
      Course e around keys asked ⟨e', (e.takeKey true keys).2,
        [.consulted (e.become around.config keys choice true) true,
          .insert (e.become around.config keys choice true)], .committed⟩
  | bracketed {e' : EditBox} {b : Bracket}
      (hbox : (e.reopen around.config.mode).Resembles e') (hother : e.precedes b = true)
      (hasked : asked = false) :
      Course e around keys asked
        ⟨e', keys.advance, [.insert (.bracket keys.next b (e.operatorFor b))], .committed⟩
  | captured {e' : EditBox} {text : String} (hbox : e.reset.Resembles e')
      (hasked : asked = false) :
      Course e around keys asked ⟨e', (e.takeKey false keys).2,
        [.changed (some (.freeText (e.takeKey false keys).1 text))], .committed⟩

variable {e e' : EditBox} {around : Surroundings} {keys : KeySupply} {asked : Bool}
  {turn : Turn Reaction}

/-! ### Boxes that resemble each other -/

theorem Resembles.reset (h : e.Resembles e') : e.reset.Resembles e'.reset where
  generation := congrArg Generation.advance h.generation
  text := rfl
  operator := rfl
  comparison := rfl
  matchText := rfl
  buckets := rfl
  matcher := h.matcher
  first := h.first
  allowFunctions := h.allowFunctions
  allowFreeText := h.allowFreeText

theorem Resembles.reopen (h : e.Resembles e') (mode : OperatorMode) :
    (e.reopen mode).Resembles (e'.reopen mode) := by
  obtain ⟨⟨hgeneration, htext, hoperator, hcomparison, -, -⟩, hmatcher, hfirst, hfunctions,
    hfreeText⟩ := h
  have hlater := congrArg Generation.advance hgeneration
  unfold EditBox.reopen
  dsimp only
  rw [hmatcher]
  split
  · rename_i m _
    refine ⟨⟨hlater, ?_, rfl, rfl, rfl, rfl⟩, rfl, hfirst, hfunctions, hfreeText⟩
    show prefillText m e'.first mode = prefillText m e.first mode
    rw [hfirst]
  · exact ⟨⟨hlater, htext, hoperator, hcomparison, rfl, rfl⟩, rfl, hfirst, hfunctions, hfreeText⟩

theorem Resembles.takeKey (h : e.Resembles e') (insert : Bool) :
    e'.takeKey insert keys = e.takeKey insert keys := by
  unfold EditBox.takeKey
  rw [h.matcher]

theorem Resembles.operatorFor (h : e.Resembles e') (b : Bracket) :
    e'.operatorFor b = e.operatorFor b := by
  unfold EditBox.operatorFor
  rw [h.operator]

theorem Resembles.precedes (h : e.Resembles e') (b : Bracket) :
    e'.precedes b = e.precedes b := by
  unfold EditBox.precedes
  rw [h.matcher]

theorem Resembles.become (h : e.Resembles e') (c : Config) (choice : Choice) (insert : Bool) :
    e'.become c keys choice insert = e.become c keys choice insert := by
  unfold EditBox.become
  rw [h.takeKey]
  cases choice with
  | suggestion o =>
      unfold candidate
      rw [h.operator, h.comparison]
  | bracket b =>
      show Matcher.bracket _ b (e'.operatorFor b) = Matcher.bracket _ b (e.operatorFor b)
      rw [h.operatorFor]

/-- A course does not depend on what only the reader of the box takes notice of. -/
theorem Course.of_resembles (hbox : e.Resembles e') (h : Course e' around keys asked turn) :
    Course e around keys asked turn := by
  cases h with
  | quiet h => exact .quiet (hbox.trans h)
  | emptied h => exact .emptied (hbox.reset.trans h)
  | @turned _ n _ h hn hanswer =>
      refine .turned (hbox.trans h) ?_ hanswer
      cases n with
      | deleteFunction =>
          have htext : e'.text.isEmpty = true := hn
          rw [hbox.text] at htext
          exact htext
      | _ => exact hn
  | cleared h => exact .cleared (hbox.reset.trans h)
  | function h hoption hfunction hnamed =>
      exact .function (hbox.reset.trans h) (hbox.buckets ▸ hoption) hfunction hnamed
  | refused h =>
      rw [hbox.takeKey]
      exact .refused (hbox.trans h)
  | objected h =>
      rw [hbox.takeKey, hbox.become]
      exact .objected (hbox.trans h)
  | committed h hchoice howner hasked =>
      rw [hbox.become] at hchoice howner
      rw [hbox.takeKey, hbox.become]
      exact .committed (hbox.reset.trans h) hchoice howner hasked
  | inserted h hchoice howner hasked =>
      rw [hbox.become] at hchoice howner
      rw [hbox.takeKey, hbox.become]
      exact .inserted (hbox.trans h) hchoice howner hasked
  | @bracketed _ b h hother hasked =>
      rw [hbox.precedes] at hother
      rw [hbox.operatorFor]
      exact .bracketed ((hbox.reopen _).trans h) hother hasked
  | captured h hasked =>
      rw [hbox.takeKey]
      exact .captured (hbox.reset.trans h) hasked

/-- It leaves it open how the box that comes of it differs in this. -/
theorem Course.congr (h : Course e around keys asked turn) (hbox : turn.box.Resembles e') :
    Course e around keys asked { turn with box := e' } := by
  cases h with
  | quiet h => exact .quiet (h.trans hbox)
  | emptied h => exact .emptied (h.trans hbox)
  | turned h hn hanswer => exact .turned (h.trans hbox) hn hanswer
  | cleared h => exact .cleared (h.trans hbox)
  | function h hoption hfunction hnamed => exact .function (h.trans hbox) hoption hfunction hnamed
  | refused h => exact .refused (h.trans hbox)
  | objected h => exact .objected (h.trans hbox)
  | committed h hchoice howner hasked => exact .committed (h.trans hbox) hchoice howner hasked
  | inserted h hchoice howner hasked => exact .inserted (h.trans hbox) hchoice howner hasked
  | bracketed h hother hasked => exact .bracketed (h.trans hbox) hother hasked
  | captured h hasked => exact .captured (h.trans hbox) hasked

/-- Where a turn is left to the owner nothing has come of it, so that the box may as well take it
in. -/
theorem Course.takenIn (h : Course e around keys asked turn) (hignored : turn.answer = .ignored) :
    Course e around keys asked { turn with answer := .handled } := by
  cases h with
  | quiet h => exact .quiet h
  | turned h hn hanswer => exact absurd hignored hanswer
  | _ => contradiction

/-! ### Committing -/

variable (e around keys)

theorem course_commit (choice : Choice) (insert : Bool) :
    Course e around keys true (e.commit around keys choice insert) := by
  unfold commit
  dsimp only
  split
  · exact .refused (resembles_of_view e ..)
  · rename_i hchoice
    split
    · exact .objected (resembles_of_view e ..)
    · rename_i howner
      cases insert with
      | true => exact .inserted (Resembles.refl e) hchoice howner rfl
      | false => exact .committed (Resembles.refl e.reset) hchoice howner rfl

/-- A bracket that goes before the edited matcher comes unasked, any other one does not. -/
theorem course_takeBracket (b : Bracket) :
    Course e around keys (!e.precedes b) (e.takeBracket around keys b) := by
  unfold takeBracket
  split
  · rename_i hother
    exact .bracketed (Resembles.refl _) hother (by rw [show e.precedes b = true from hother]; rfl)
  · rename_i hsame
    rw [show e.precedes b = false from Bool.eq_false_iff.mpr hsame]
    exact e.course_commit around keys (.bracket b) false

/-- For a bracket the row is all there is to be changed, and nothing goes before the edited matcher
but what is meant to. -/
theorem of_mem_notices_takeBracket {b : Bracket} {n : Notice}
    (h : n ∈ (e.takeBracket around keys b).notices) :
    (e.precedes b = true ∧ ∃ m, n = .insert m) ∨
      ∃ m, n = .consulted m false ∨ n = .changed (some m) := by
  unfold takeBracket at h
  split at h
  · rename_i hother
    exact Or.inl ⟨hother, _, List.mem_singleton.mp h⟩
  · refine Or.inr ?_
    unfold commit at h
    dsimp only at h
    split at h
    · contradiction
    · split at h
      · exact ⟨_, Or.inl (List.mem_singleton.mp h)⟩
      · rw [if_neg Bool.false_ne_true] at h
        rcases List.mem_cons.mp h with rfl | h
        · exact ⟨_, Or.inl rfl⟩
        · exact ⟨_, Or.inr (List.mem_singleton.mp h)⟩

theorem course_select (slot : Nat) (insert : Bool) :
    Course e around keys true (e.select around keys slot insert) := by
  unfold select
  split
  · exact .quiet (Resembles.refl e)
  · rename_i o hoption
    split
    · rename_i hfunction
      split
      · rename_i f hnamed
        exact .function (Resembles.refl e.reset) hoption hfunction hnamed
      · exact .quiet (Resembles.refl e)
    · exact e.course_commit around keys (.suggestion o) insert

theorem course_commitFreeText : Course e around keys false (e.commitFreeText keys) := by
  unfold commitFreeText
  split
  · exact .captured (Resembles.refl e.reset) rfl
  · exact .quiet (Resembles.refl e)

/-! ### Keys -/

/-- The key commits free text, if there is any to commit. -/
def quotes (e : EditBox) (p : KeyPress) : Bool := (p.key == .enter || p.key == .tab) && e.isQuoted

theorem course_leave : Course e around keys asked (e.leave keys) := by
  unfold leave
  split
  · split
    · exact .cleared (Resembles.refl e.reset)
    · exact .turned (Resembles.refl e) trivial (by simp)
  · exact .quiet (Resembles.refl e)

theorem course_onEnter (shift : Bool) :
    Course e around keys (!e.isQuoted) (e.onEnter around keys shift) := by
  unfold onEnter
  split
  · rename_i hquoted
    rw [show e.isQuoted = true from hquoted]
    exact e.course_commitFreeText around keys
  · rename_i hplain
    rw [show e.isQuoted = false from Bool.eq_false_iff.mpr hplain]
    split
    · dsimp only
      split
      · rename_i hignored
        exact (e.course_select around keys _ shift).takenIn hignored
      · exact e.course_select around keys _ shift
    · exact e.course_leave around keys

/-- Backspace is taken only where nothing has been typed. -/
theorem course_onBackspace (p : KeyPress) (htext : e.text.isEmpty = true) :
    Course e around keys asked (e.onBackspace keys p) := by
  unfold onBackspace
  split
  · refine .turned (Resembles.refl e) ?_ (by simp)
    split
    · exact htext
    · trivial
  · split
    · exact .cleared (Resembles.refl e.reset)
    · exact .quiet (Resembles.refl e)

theorem course_onEscape : Course e around keys asked (e.onEscape keys) := by
  unfold onEscape
  split
  · exact .turned (Resembles.refl e) trivial (by simp)
  · split
    · exact .quiet (Resembles.refl e)
    · exact .emptied (Resembles.refl e.reset)

theorem resembles_stepHighlight (forward : Bool) : e.Resembles (e.stepHighlight forward).1 := by
  unfold stepHighlight
  dsimp only
  split
  · exact Resembles.refl e
  · exact resembles_of_view e ..

theorem resembles_pageHighlight (forward : Bool) : e.Resembles (e.pageHighlight forward).1 := by
  unfold pageHighlight
  dsimp only
  split
  · exact Resembles.refl e
  · exact resembles_of_view e ..

theorem resembles_jumpHighlight (toEnd : Bool) : e.Resembles (e.jumpHighlight toEnd).1 := by
  unfold jumpHighlight
  dsimp only
  split
  · exact Resembles.refl e
  · exact resembles_of_view e ..

theorem course_react (p : KeyPress) :
    Course e around keys (!e.quotes p) (e.react around keys p) := by
  have hconfirm : (p.key == .enter || p.key == .tab) = true → e.quotes p = e.isQuoted := by
    intro hkey
    unfold quotes
    rw [hkey, Bool.true_and]
  unfold react
  cases hkey : p.key with
  | arrowLeft =>
      dsimp only
      split
      · exact .turned (Resembles.refl e) trivial (by simp)
      · exact .quiet (Resembles.refl e)
  | arrowRight =>
      dsimp only
      split
      · exact .turned (Resembles.refl e) trivial (by simp)
      · exact .quiet (Resembles.refl e)
  | arrowUp => exact .quiet (e.resembles_stepHighlight false)
  | arrowDown => exact .quiet (e.resembles_stepHighlight true)
  | pageUp => exact .quiet (e.resembles_pageHighlight false)
  | pageDown => exact .quiet (e.resembles_pageHighlight true)
  | home => exact .quiet (e.resembles_jumpHighlight false)
  | finish => exact .quiet (e.resembles_jumpHighlight true)
  | enter =>
      rw [hconfirm (by rw [hkey]; rfl)]
      exact e.course_onEnter around keys p.shift
  | tab =>
      rw [hconfirm (by rw [hkey]; rfl)]
      exact e.course_onEnter around keys p.shift
  | backspace =>
      dsimp only
      split
      · rename_i htext
        exact e.course_onBackspace around keys p htext
      · exact .quiet (Resembles.refl e)
  | escape => exact e.course_onEscape around keys

/-- **What a key comes to.** -/
theorem course_key (p : KeyPress) : Course e around keys (!e.quotes p) (e.key around keys p) := by
  have hreact := course_react { e with error := none, outcome := none } around keys p
  have hcourse := hreact.of_resembles (resembles_of_view e ..)
  unfold key
  dsimp only
  split
  · exact hcourse.congr (resembles_of_view _ ..)
  · exact hcourse

/-- Backspace is left to the owner where there is a text. -/
theorem answer_key_backspace {p : KeyPress} (hkey : p.key = .backspace)
    (htext : e.text.isEmpty = false) : (e.key around keys p).answer = .ignored := by
  have hreact : { e with error := none, outcome := none }.react around keys p =
      ⟨{ e with error := none, outcome := none }, keys, [], .ignored⟩ := by
    unfold react
    rw [hkey]
    exact if_neg (by rw [htext]; exact Bool.false_ne_true)
  unfold key
  dsimp only
  rw [hreact]
  rfl

/-! ### What becomes of the box -/

variable {e around keys}

/-- There is a text as long as something is searched for. -/
def Legible (e : EditBox) : Prop := e.matchText.isSome = true → e.text.isEmpty = false

theorem legible_of_unsearched (h : e.matchText = none) : e.Legible := by
  intro hsome
  rw [h] at hsome
  contradiction

theorem Resembles.legible (h : e.Resembles e') (hlegible : e.Legible) : e'.Legible := by
  unfold Legible
  rw [h.matchText, h.text]
  exact hlegible

theorem matchText_reopen (mode : OperatorMode) : (e.reopen mode).matchText = none := by
  unfold reopen
  dsimp only
  split <;> rfl

theorem allowFunctions_reopen (mode : OperatorMode) :
    (e.reopen mode).allowFunctions = e.allowFunctions := by
  unfold reopen
  dsimp only
  split <;> rfl

/-- A turn makes no difference to what the bar has told the box of functions. -/
theorem Course.allowFunctions (h : Course e around keys asked turn) :
    turn.box.allowFunctions = e.allowFunctions := by
  cases h with
  | bracketed hbox _ _ => exact hbox.allowFunctions.trans (allowFunctions_reopen _)
  | quiet hbox | emptied hbox | turned hbox _ _ | cleared hbox | function hbox _ _ _
  | refused hbox | objected hbox | committed hbox _ _ _ | inserted hbox _ _ _
  | captured hbox _ => exact hbox.allowFunctions

theorem Course.legible (h : Course e around keys asked turn) (hlegible : e.Legible) :
    turn.box.Legible := by
  cases h with
  | bracketed hbox _ _ =>
      exact legible_of_unsearched (hbox.matchText.trans (matchText_reopen _))
  | quiet hbox | turned hbox _ _ | refused hbox | objected hbox | inserted hbox _ _ _ =>
      exact hbox.legible hlegible
  | emptied hbox | cleared hbox | function hbox _ _ _ | committed hbox _ _ _ | captured hbox _ =>
      exact legible_of_unsearched hbox.matchText

/-- **A turn that is left to the owner has come to nothing.** -/
theorem Course.of_ignored (h : Course e around keys asked turn)
    (hignored : turn.answer = .ignored) :
    e.Resembles turn.box ∧ turn.keys = keys ∧ turn.notices = [] := by
  cases h with
  | quiet hbox => exact ⟨hbox, rfl, rfl⟩
  | turned _ _ hanswer => exact absurd hignored hanswer
  | _ => contradiction

/-- **A turn keeps the search of the box or ends it.** -/
theorem Course.follows (h : Course e around keys asked turn) : Follows e turn.box := by
  cases h with
  | bracketed hbox _ _ =>
      exact Or.inr ((closes_reopen e _).trans_follows (Or.inl hbox.toKeeps))
  | quiet hbox | turned hbox _ _ | refused hbox | objected hbox | inserted hbox _ _ _ =>
      exact Or.inl hbox.toKeeps
  | emptied hbox | cleared hbox | function hbox _ _ _ | committed hbox _ _ _ | captured hbox _ =>
      exact Or.inr ((closes_reset e).trans_follows (Or.inl hbox.toKeeps))

end EditBox

end QueryBar
