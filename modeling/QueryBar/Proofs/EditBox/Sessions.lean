/-
How long an edit goes on.

Of its edit a box knows which matcher it edits and whether the owner has been told that the text has
been touched.  Nothing that is done to a box changes either of the two, except that a text that
announces the edit has the box take note of that (`resumes_typeText`).  So the owner is told once,
however long the edit goes on; it takes another box to be told again.

What a box wishes into the row is never marked as being edited (`Course.plain`).
-/
import QueryBar.Proofs.Bar.Echo

namespace QueryBar.EditBox

/-- The second box goes on with the edit of the first. -/
structure Resumes (e e' : EditBox) : Prop where
  matcher : e'.matcher = e.matcher
  touched : e'.touched = e.touched

variable {e e' e'' : EditBox} {around : Surroundings} {keys : KeySupply} {asked : Bool}
  {turn : Turn Reaction} {n : Notice} {m : Matcher}

theorem Resumes.refl (e : EditBox) : e.Resumes e := ⟨rfl, rfl⟩

theorem Resumes.trans (h : e.Resumes e') (h' : e'.Resumes e'') : e.Resumes e'' :=
  ⟨h'.matcher.trans h.matcher, h'.touched.trans h.touched⟩

/-! ### What leaves the edit alone -/

theorem resumes_settleHighlight (e : EditBox) : e.Resumes e.settleHighlight := by
  unfold settleHighlight
  split
  · exact ⟨rfl, rfl⟩
  · split
    · exact Resumes.refl e
    · split
      · exact ⟨rfl, rfl⟩
      · split <;> exact ⟨rfl, rfl⟩

theorem resumes_highlight (e : EditBox) (slot : Nat) : e.Resumes (e.highlight slot) := by
  unfold highlight
  split <;> exact ⟨rfl, rfl⟩

theorem resumes_takeAnswer (e : EditBox) (c : Config) (a : LookupAnswer) :
    e.Resumes (e.takeAnswer c a).1 := by
  unfold takeAnswer
  split
  · split
    · rename_i buckets _
      exact (show e.Resumes { e with buckets } from ⟨rfl, rfl⟩).trans (resumes_settleHighlight _)
    · exact Resumes.refl e
  · exact Resumes.refl e

theorem resumes_reopen (e : EditBox) (mode : OperatorMode) : e.Resumes (e.reopen mode) := by
  refine ⟨e.matcher_reopen mode, ?_⟩
  unfold reopen
  dsimp only
  split <;> rfl

/-! ### Turns -/

variable (e around keys)

theorem resumes_commit (choice : Choice) (insert : Bool) :
    e.Resumes (e.commit around keys choice insert).box := by
  unfold commit
  dsimp only
  split
  · exact ⟨rfl, rfl⟩
  · split
    · exact ⟨rfl, rfl⟩
    · split <;> exact ⟨rfl, rfl⟩

theorem resumes_takeBracket (b : Bracket) : e.Resumes (e.takeBracket around keys b).box := by
  unfold takeBracket
  split
  · exact e.resumes_reopen _
  · exact e.resumes_commit ..

theorem resumes_select (slot : Nat) (insert : Bool) :
    e.Resumes (e.select around keys slot insert).box := by
  unfold select
  split
  · exact Resumes.refl e
  · split
    · split <;> exact ⟨rfl, rfl⟩
    · exact e.resumes_commit ..

theorem resumes_onEnter (shift : Bool) : e.Resumes (e.onEnter around keys shift).box := by
  unfold onEnter
  split
  · unfold commitFreeText
    split <;> exact ⟨rfl, rfl⟩
  · split
    · dsimp only
      split <;> exact e.resumes_select ..
    · unfold leave
      split
      · split <;> exact ⟨rfl, rfl⟩
      · exact Resumes.refl e

theorem resumes_react (p : KeyPress) : e.Resumes (e.react around keys p).box := by
  unfold react
  cases p.key with
  | enter => exact e.resumes_onEnter ..
  | tab => exact e.resumes_onEnter ..
  | backspace =>
      unfold onBackspace
      dsimp only
      split
      · split
        · exact ⟨rfl, rfl⟩
        · split <;> exact ⟨rfl, rfl⟩
      · exact Resumes.refl e
  | escape =>
      unfold onEscape
      dsimp only
      split
      · exact ⟨rfl, rfl⟩
      · split <;> exact ⟨rfl, rfl⟩
  | _ =>
      simp only [stepHighlight, pageHighlight, jumpHighlight]
      split <;> exact ⟨rfl, rfl⟩

theorem resumes_key (p : KeyPress) : e.Resumes (e.key around keys p).box := by
  have hreact := resumes_react { e with error := none, outcome := none } around keys p
  have hturn : e.Resumes (react { e with error := none, outcome := none } around keys p).box :=
    ⟨hreact.matcher, hreact.touched⟩
  unfold key
  dsimp only
  split
  · exact ⟨hturn.matcher, hturn.touched⟩
  · exact hturn

/-- **A text that announces the edit has the box take note of that**, and no other one does. -/
theorem resumes_typeText (text : String) :
    Resumes { e with touched := e.touched || e.announces text }
      (e.typeText around keys text).box := by
  let noted : EditBox := { e with touched := e.touched || e.announces text }
  have hsettled : ∀ typed, noted.Resumes typed → noted.Resumes typed.settleHighlight :=
    fun typed h => h.trans (resumes_settleHighlight typed)
  show noted.Resumes _
  unfold typeText
  dsimp only
  split
  · exact hsettled _ ⟨rfl, rfl⟩
  · split
    · rename_i b _
      generalize hbox : EditBox.settleHighlight _ = typed
      have htyped : noted.Resumes typed := by
        rw [← hbox]
        exact hsettled _ ⟨rfl, rfl⟩
      exact htyped.trans (typed.resumes_takeBracket around keys b)
    · exact hsettled _ ⟨rfl, rfl⟩

variable {e around keys}

/-! ### What comes of it -/

theorem changing_become (e : EditBox) (c : Config) (keys : KeySupply) (choice : Choice)
    (insert : Bool) : (e.become c keys choice insert).changing = false := by
  cases choice with
  | suggestion o => rfl
  | bracket b => rfl

/-- **Nothing that a box wishes into the row is marked as being edited.** -/
theorem Course.plain (h : Course e around keys asked turn) (hn : n ∈ turn.notices)
    (hm : n.incoming? = some m) : m.changing = false := by
  cases h with
  | turned _ hturns _ =>
      obtain rfl := List.mem_singleton.mp hn
      cases n with
      | changed m => exact hturns.elim
      | insert m => exact hturns.elim
      | _ => contradiction
  | cleared _ | function _ _ _ _ | objected _ =>
      obtain rfl := List.mem_singleton.mp hn
      contradiction
  | committed _ _ _ _ | inserted _ _ _ _ =>
      rcases List.mem_cons.mp hn with rfl | hn
      · contradiction
      · obtain rfl := List.mem_singleton.mp hn
        obtain rfl := Option.some.inj hm
        exact changing_become ..
  | bracketed _ _ _ | captured _ _ =>
      obtain rfl := List.mem_singleton.mp hn
      obtain rfl := Option.some.inj hm
      rfl
  | quiet _ | emptied _ | refused _ => contradiction

theorem plain_typeText {text : String} (hn : n ∈ (e.typeText around keys text).notices)
    (hm : n.incoming? = some m) : m.changing = false := by
  obtain ⟨_, _, turn, hcourse, hnotices⟩ := e.notices_typeText around keys text
  rw [hnotices] at hn
  rcases List.mem_append.mp hn with hannounced | hturn
  · split at hannounced
    · rw [List.mem_singleton.mp hannounced] at hm
      contradiction
    · contradiction
  · exact hcourse.plain hturn hm

end QueryBar.EditBox
