/-
What the observer is told, and how long an edit goes on.

The observer is told of each change of the row, and told nothing as long as the row stays as it is.
Apart from the announcement of an edit, an operation has at most one thing to tell, which is the row
that it leaves behind (`Reports`).

Along with that goes what becomes of the open box.  It resumes the edit, or another matcher is
edited and nothing has been announced of that (`EditBox.Handover`).  That no box is opened anew for
the matcher that is edited is where the keys have to be apart: the bar takes a box to be the right
one by its place and its key.
-/
import QueryBar.Proofs.Bar.Failures
import QueryBar.Proofs.Bar.Upkeep
import QueryBar.Proofs.EditBox.Sessions

namespace QueryBar

/-- The key of the matcher that is edited. -/
def EditBox.edited? (e : EditBox) : Option String := e.matcher.map (·.key)

theorem EditBox.edited?_of_held {e : EditBox} {held : Option Matcher} (h : e.matcher = held) :
    e.edited? = held.map (·.key) := congrArg (Option.map Matcher.key) h

/-- The second box resumes the edit of the first, or it is a new one that edits another matcher or
none. -/
inductive EditBox.Handover (e e' : EditBox) : Prop
  | resumed (h : e.Resumes e')
  | another (hedited : e'.edited? ≠ e.edited?) (hnew : e'.touched = false)

theorem EditBox.Handover.congr {e e' e'' : EditBox} (h : e.Handover e') (hbox : e'.Resumes e'') :
    e.Handover e'' := by
  cases h with
  | resumed h => exact .resumed (h.trans hbox)
  | another hedited hnew =>
      refine .another ?_ (hbox.touched.trans hnew)
      rw [edited?_of_held hbox.matcher]
      exact hedited

theorem EditBox.Resumes.handover {e e' e'' : EditBox} (h : e.Resumes e') (h' : e'.Handover e'') :
    e.Handover e'' := by
  cases h' with
  | resumed h' => exact .resumed (h.trans h')
  | another hedited hnew =>
      refine .another ?_ hnew
      rw [edited?_of_held h.matcher] at hedited
      exact hedited

namespace Bar

/-- The observer is told the row if it has changed, and the edit is resumed or another one begins. -/
structure Reports (b b' : Bar) : Prop where
  told : b'.told = b.told ∧ b'.matchers = b.matchers ∨ b'.told = b.told ++ [b'.matchers]
  session : b.InStep → (b.matchers.map (·.key)).Nodup → b.box.Handover b'.box

variable {b b' b'' : Bar}

/-- Nothing has happened that the observer has to know of. -/
theorem Reports.silent (htold : b'.told = b.told) (hrow : b'.matchers = b.matchers)
    (hbox : b.box.Resumes b'.box) : b.Reports b' :=
  ⟨Or.inl ⟨htold, hrow⟩, fun _ _ => .resumed hbox⟩

theorem Reports.refl (b : Bar) : b.Reports b := .silent rfl rfl (EditBox.Resumes.refl b.box)

/-- What there is to report depends on the row, the open place and the edit. -/
theorem Reports.congr_left (h : b'.Reports b'') (htold : b'.told = b.told)
    (hrow : b'.matchers = b.matchers) (hactive : b'.active = b.active)
    (hbox : b.box.Resumes b'.box) : b.Reports b'' := by
  refine ⟨htold ▸ hrow ▸ h.told, fun hstep hkeys => hbox.handover (h.session ?_ (hrow ▸ hkeys))⟩
  exact hstep.kept ⟨hactive, hbox.matcher⟩ fun a m _ hm => hrow ▸ hm

/-! ### Keeping in step with the row -/

theorem resumes_placeBox (b : Bar) : b.box.Resumes b.placeBox.box := by
  unfold placeBox
  split <;> exact ⟨rfl, rfl⟩

/-- **Every change of the row is told.** -/
theorem reports_rowChanged (htold : b'.told = b.told)
    (hbox : b.InStep → (b.matchers.map (·.key)).Nodup → b.box.Handover b'.box) :
    b.Reports b'.rowChanged :=
  ⟨Or.inr (congrArg (· ++ [b'.matchers]) htold),
    fun hstep hkeys => (hbox hstep hkeys).congr (resumes_placeBox b'.flagBrackets)⟩

/-- The row has changed around the open box. -/
theorem reports_rowChanged_of_box (htold : b'.told = b.told) (hbox : b'.box = b.box) :
    b.Reports b'.rowChanged :=
  reports_rowChanged htold fun _ _ => .resumed (hbox ▸ EditBox.Resumes.refl _)

theorem reports_useFunction (b : Bar) (f : Option QueryFunction) : b.Reports (b.useFunction f) :=
  .silent rfl rfl (resumes_placeBox { b with function := f })

/-! ### Opening boxes -/

theorem InStep.paired (h : b.InStep) : b.Paired := by
  rcases h with hclosed | ⟨i, m, hactive, -, hheld⟩
  · exact hclosed.paired
  · unfold Paired
    rw [hactive, hheld]
    rfl

/-- A new box edits another matcher than the old one, if the right one is told by its key alone. -/
theorem handover_openAt_of {place : Option Nat}
    (hsame : let target := place.bind fun i => b.matchers[i]?.map fun m => (i, m)
      target.map (·.2.key) = b.box.edited? → target.map Prod.fst = b.active) :
    b.box.Handover (b.openAt place).box := by
  unfold openAt
  dsimp only at hsame ⊢
  generalize (place.bind fun i => b.matchers[i]?.map fun m => (i, m)) = target at hsame ⊢
  split
  · exact .resumed (EditBox.Resumes.refl _)
  · rename_i hother
    have hopened : ∀ e : EditBox, e.edited? = target.map (·.2.key) → e.touched = false →
        b.box.Handover e := by
      intro e hedited hnew
      refine .another (fun hkey => hother ?_) hnew
      have htarget := hedited.symm.trans hkey
      exact ⟨hsame htarget, htarget⟩
    cases target with
    | none => exact hopened _ rfl rfl
    | some target => exact hopened _ rfl rfl

/-- Where keys are apart and the open matcher stands at the active place, its key tells it. -/
theorem handover_openAt (hstep : b.InStep) (hkeys : (b.matchers.map (·.key)).Nodup)
    (place : Option Nat) : b.box.Handover (b.openAt place).box := by
  refine handover_openAt_of fun hkey => ?_
  cases htarget : place.bind fun i => b.matchers[i]?.map fun m => (i, m) with
  | none =>
      rw [htarget] at hkey
      have hnone := Option.map_eq_none_iff.mp hkey.symm
      rcases hstep with hclosed | ⟨_, _, -, -, hheld⟩
      · exact hclosed.active.symm
      · exact absurd (hnone.symm.trans hheld) (by simp)
  | some target =>
      obtain ⟨j, -, hfound⟩ := Option.bind_eq_some_iff.mp htarget
      obtain ⟨n, hn, rfl⟩ := Option.map_eq_some_iff.mp hfound
      rw [htarget] at hkey
      rcases hstep with hclosed | ⟨i, m, hactive, hm, hheld⟩
      · exact absurd (hkey.trans (EditBox.edited?_of_held hclosed.held)) (by simp)
      · have hsame : n.key = m.key := Option.some.inj (hkey.trans (EditBox.edited?_of_held hheld))
        have hplaces := (RowChange.findIdx?_key hkeys hn).symm.trans
          (hsame ▸ RowChange.findIdx?_key hkeys hm)
        rw [hactive]
        exact hplaces

theorem handover_openTrailing (h : b.Paired) : b.box.Handover b.openTrailing.box := by
  refine handover_openAt_of fun hkey => ?_
  rcases h.closed_or_open with hclosed | ⟨_, _, -, hheld⟩
  · exact hclosed.active.symm
  · exact absurd (hkey.trans (EditBox.edited?_of_held hheld)) (by simp)

theorem reports_openAt (b : Bar) (place : Option Nat) : b.Reports (b.openAt place) :=
  ⟨Or.inl ⟨told_openAt b place, matchers_openAt b place⟩,
    fun hstep hkeys => handover_openAt hstep hkeys place⟩

theorem reports_takeFocus (b : Bar) : b.Reports b.takeFocus := by
  unfold takeFocus
  split
  · exact Reports.refl b
  · exact ⟨(reports_openAt b none).told, (reports_openAt b none).session⟩

theorem reports_blur (b : Bar) : b.Reports b.blur := by
  have hclosed : b.Reports { b with hasFocus := false }.openTrailing :=
    (reports_openAt { b with hasFocus := false } none).congr_left rfl rfl rfl
      (EditBox.Resumes.refl b.box)
  exact ⟨hclosed.told, fun hstep hkeys => (hclosed.session hstep hkeys).congr ⟨rfl, rfl⟩⟩

/-! ### Changes of the row -/

/-- The row has changed, and the edit is closed before that is told. -/
theorem reports_close (htold : b'.told = b.told) (hactive : b'.active = b.active)
    (hbox : b'.box = b.box) : b.Reports b'.openTrailing.rowChanged := by
  refine reports_rowChanged ((told_openAt b' none).trans htold) fun hstep _ => ?_
  have hpaired : b'.Paired := by
    unfold Paired
    rw [hactive, hbox]
    exact hstep.paired
  exact hbox ▸ handover_openTrailing hpaired

theorem reports_update (b : Bar) (m : Matcher) : b.Reports (b.update m).1 := by
  unfold update
  split
  · exact Reports.refl b
  · exact reports_close rfl rfl rfl

theorem reports_remove (b : Bar) (key : String) (closeEdit : Bool) :
    b.Reports (b.remove key closeEdit).1 := by
  unfold remove
  dsimp only
  split
  · exact Reports.refl b
  · split
    · exact reports_close rfl rfl rfl
    · exact reports_rowChanged_of_box rfl rfl

theorem reports_deleteLast (b : Bar) : b.Reports b.deleteLast := by
  unfold deleteLast
  split
  · exact reports_remove ..
  · split
    · exact reports_useFunction b none
    · exact Reports.refl b

theorem reports_deleteAll (b : Bar) : b.Reports b.deleteAll := reports_close rfl rfl rfl

theorem reports_add (b : Bar) (m : Matcher) : b.Reports (b.add m) :=
  reports_rowChanged_of_box rfl rfl

theorem reports_insertBefore {m : Matcher} {anchor : Option String}
    (h : b.insertBefore m anchor = .ok b') : b.Reports b' := by
  unfold insertBefore at h
  split at h
  · obtain rfl := Except.ok.inj h
    exact reports_add b m
  · split at h
    · contradiction
    · obtain rfl := Except.ok.inj h
      exact reports_rowChanged_of_box rfl rfl

theorem reports_swap (b : Bar) (key other : String) : b.Reports (b.swap key other).1 := by
  unfold swap
  split
  · exact reports_rowChanged_of_box rfl rfl
  · exact Reports.refl b

theorem reports_moveActive (b : Bar) (forward : Bool) : b.Reports (b.moveActive forward).1 := by
  rcases b.moveActive_eq_or forward with hstays | ⟨_, _, hswap⟩
  · rw [hstays]
    exact Reports.refl b
  · rw [hswap]
    exact reports_swap ..

theorem reports_drop (b : Bar) (target type data : String) :
    b.Reports (b.drop target type data).1 := by
  rcases b.drop_eq_or target type data with hstays | ⟨_, _, hswap⟩
  · rw [hstays]
    exact Reports.refl b
  · rw [hswap]
    exact reports_swap ..

theorem reports_complete (b : Bar) : b.Reports b.complete.1 := by
  unfold complete
  split
  · exact Reports.refl b
  · refine reports_rowChanged (told_openAt _ none) fun hstep _ => ?_
    have hclosed := handover_openTrailing
      (b := { b with matchers := [], function := none, hasFocus := false }) hstep.paired
    exact hclosed.congr ⟨rfl, rfl⟩

/-! ### Selections -/

theorem reports_select (b : Bar) (place : Nat) : b.Reports (b.select place) :=
  (reports_openAt { b with hasFocus := true } (some place)).congr_left rfl rfl rfl
    (EditBox.Resumes.refl _)

theorem reports_editPrevious (b : Bar) : b.Reports b.editPrevious := by
  unfold editPrevious
  split
  · exact reports_openAt ..
  · exact Reports.refl b

theorem reports_editNext (b : Bar) : b.Reports b.editNext := by
  unfold editNext
  split
  · exact reports_openAt ..
  · exact Reports.refl b

theorem reports_toFirst (b : Bar) : b.Reports b.toFirst.1 := by
  unfold toFirst
  split
  · exact Reports.refl b
  · exact reports_openAt ..

theorem reports_toEnd (b : Bar) : b.Reports b.toEnd.1 := by
  unfold toEnd
  split
  · exact Reports.refl b
  · exact reports_openAt ..

/-! ### Acting for the box -/

/-- Every notice but an announcement is acted on at most once in the row. -/
theorem reports_heed (edited : Option String) (b : Bar) {n : Notice} (hn : n ≠ .changing) :
    b.Reports (heed edited b n) := by
  cases n with
  | changed m =>
      cases m with
      | some m =>
          simp only [heed]
          split
          · exact reports_update b m
          · exact reports_add b m
      | none =>
          simp only [heed]
          split
          · exact reports_remove ..
          · exact Reports.refl b
  | consulted m inserting => exact Reports.refl b
  | insert m =>
      show b.Reports ((b.insertBefore m edited).toOption.getD b)
      cases h : b.insertBefore m edited with
      | ok b' => exact reports_insertBefore h
      | error _ => exact Reports.refl b
  | editPrevious deleting =>
      simp only [heed]
      split
      · exact reports_remove ..
      · exact reports_editPrevious b
  | editNext => exact reports_editNext b
  | focus =>
      simp only [heed]
      split
      · exact reports_takeFocus b
      · exact Reports.refl b
  | cancel => exact reports_openAt b none
  | changing => exact absurd rfl hn
  | setFunction f => exact reports_useFunction b _
  | deleteFunction => exact reports_useFunction b _

/-- Of what the box lets the bar know in a turn, one notice at most leads to anything. -/
theorem reports_foldl_heed {e : EditBox} {around : Surroundings} {keys : KeySupply} {asked : Bool}
    {turn : Turn Reaction} (h : e.Course around keys asked turn) (edited : Option String)
    (b : Bar) : b.Reports (turn.notices.foldl (heed edited) b) := by
  have hsilent := h.not_changing
  cases h with
  | quiet _ | emptied _ | refused _ | objected _ => exact Reports.refl b
  | turned _ _ _ | cleared _ | function _ _ _ _ | bracketed _ _ _ | captured _ _ =>
      exact reports_heed edited b (hsilent _ (List.mem_singleton_self _))
  | committed _ _ _ _ | inserted _ _ _ _ =>
      exact reports_heed edited b (hsilent _ (List.mem_cons_of_mem _ (List.mem_singleton_self _)))

theorem reports_takeTurn {turn : Turn Reaction} {asked : Bool}
    (h : b.box.Course b.surroundings b.keys asked turn) (hbox : b.box.Resumes turn.box) :
    b.Reports (b.takeTurn turn).1 :=
  (reports_foldl_heed h _ { b with box := turn.box, keys := turn.keys }).congr_left rfl rfl rfl hbox

theorem reports_choose (b : Bar) (slot : Nat) (insert : Bool) :
    b.Reports (b.choose slot insert).1 :=
  reports_takeTurn (b.box.course_select ..) (b.box.resumes_select ..)

theorem reports_focus (b : Bar) : b.Reports b.focus :=
  reports_heed b.box.edited? b (n := .focus) (by simp)

/-! ### Keys -/

theorem reports_command (b : Bar) (p : KeyPress) : b.Reports (b.command p).1 := by
  unfold command
  cases p.key with
  | arrowLeft =>
      dsimp only
      split
      · exact reports_openAt ..
      · split
        · exact reports_moveActive b false
        · exact Reports.refl b
  | arrowRight =>
      dsimp only
      split
      · exact reports_openAt ..
      · split
        · exact reports_moveActive b true
        · exact Reports.refl b
  | backspace =>
      dsimp only
      split
      · exact reports_deleteLast b
      · split
        · exact reports_deleteAll b
        · exact Reports.refl b
  | enter =>
      have hcomplete := reports_complete b
      dsimp only
      split <;> rename_i h <;> rw [h] at hcomplete <;> exact hcomplete
  | home => exact reports_toFirst b
  | finish => exact reports_toEnd b
  | arrowUp | arrowDown | pageUp | pageDown | tab | escape => exact Reports.refl b

theorem reports_key (b : Bar) (p : KeyPress) : b.Reports (b.key p).1 := by
  have hbox := b.box.resumes_key b.surroundings b.keys p
  rcases b.key_cases p with ⟨-, hkey⟩ | ⟨-, -, hkey⟩
  · rw [hkey]
    exact reports_takeTurn (b.box.course_key ..) hbox
  · rw [hkey]
    exact (reports_command _ p).congr_left rfl rfl rfl hbox

/-! ### All operations -/

/-- A row with the matcher marked that has a key. -/
def marking (key : String) (row : List Matcher) : List Matcher :=
  row.map fun m => if m.key = key then { m with changing := true } else m

/-- What the observer is told of an edit that is announced: the row with the edited matcher
marked. -/
def announcement (b : Bar) (operation : Operation) : List (List Matcher) :=
  if b.announces operation then b.box.edited?.toList.map fun key => marking key b.matchers else []

/-- The edit has been announced, if the operation announces it, and nothing else has been done
yet. -/
structure Announced (b : Bar) (operation : Operation) (heard : Bar) : Prop where
  told : heard.told = b.told ++ b.announcement operation
  row : heard.matchers = b.matchers
  active : heard.active = b.active
  held : heard.box.matcher = b.box.matcher
  touched : heard.box.touched = (b.box.touched || b.announces operation)

variable {operation : Operation}

theorem Announced.refl (h : b.announces operation = false) : b.Announced operation b where
  told := by rw [announcement, h, if_neg Bool.false_ne_true, List.append_nil]
  row := rfl
  active := rfl
  held := rfl
  touched := by rw [h, Bool.or_false]

/-- A text is announced first, and then there is what comes of it to report. -/
theorem exists_announced_input (b : Bar) (text : String) :
    ∃ heard, b.Announced (.input text) heard ∧ heard.Reports (b.input text).1 := by
  obtain ⟨_, _, turn, hcourse, hnotices⟩ := b.box.notices_typeText b.surroundings b.keys text
  have hbox := b.box.resumes_typeText b.surroundings b.keys text
  let typed := b.box.typeText b.surroundings b.keys text
  let taken : Bar := { b with box := typed.box, keys := typed.keys }
  let heard := (if b.box.announces text then [Notice.changing] else []).foldl
    (heed b.box.edited?) taken
  have hinput : (b.input text).1 = turn.notices.foldl (heed b.box.edited?) heard := by
    have hedited : typed.box.matcher.map (·.key) = b.box.edited? :=
      EditBox.edited?_of_held hbox.matcher
    unfold input takeTurn
    dsimp only
    rw [hedited, hnotices, List.foldl_append]
  have hasides : ∀ n ∈ (if b.box.announces text then [Notice.changing] else []),
      n.isAside = true := by
    intro n hn
    split at hn
    · rw [List.mem_singleton.mp hn]
      rfl
    · contradiction
  have hheard : heard.box = typed.box := box_foldl_heed_aside _ hasides taken
  have halike : taken.Alike heard := alike_foldl_heed hasides _ taken
  have htold : heard.told = b.told ++ b.announcement (.input text) := by
    show (List.foldl (heed b.box.edited?) taken
      (if b.box.announces text then [Notice.changing] else [])).told =
        b.told ++ if b.box.announces text then _ else []
    cases b.box.announces text with
    | false => exact (List.append_nil _).symm
    | true =>
        cases b.box.edited? with
        | none => exact (List.append_nil _).symm
        | some key => rfl
  exact ⟨heard, ⟨htold, halike.row, halike.active, hheard ▸ hbox.matcher, hheard ▸ hbox.touched⟩,
    hinput ▸ reports_foldl_heed hcourse _ heard⟩

/-- **An operation announces the edit, if at all, and then reports what has become of the row and of
the edit**, unless it brings a row from outside. -/
theorem exists_announced (b : Bar) (operation : Operation) (hrow : ∀ row, operation ≠ .sync row) :
    ∃ heard, b.Announced operation heard ∧ heard.Reports (b.perform operation).1 := by
  cases operation with
  | input text => exact exists_announced_input b text
  | compose operator comparison =>
      obtain ⟨heard, hannounced, hreports⟩ :=
        exists_announced_input b (b.box.composedText operator comparison)
      exact ⟨heard, ⟨hannounced.told, hannounced.row, hannounced.active, hannounced.held,
        hannounced.touched⟩, hreports⟩
  | key press => exact ⟨b, .refl rfl, reports_key b press⟩
  | choose slot insert => exact ⟨b, .refl rfl, reports_choose b slot insert⟩
  | highlight slot => exact ⟨b, .refl rfl, .silent rfl rfl (b.box.resumes_highlight slot)⟩
  | takeAnswer answer =>
      exact ⟨b, .refl rfl, .silent rfl rfl (b.box.resumes_takeAnswer b.config answer)⟩
  | focus => exact ⟨b, .refl rfl, reports_focus b⟩
  | blur => exact ⟨b, .refl rfl, reports_blur b⟩
  | add m => exact ⟨b, .refl rfl, reports_add b m⟩
  | update m => exact ⟨b, .refl rfl, reports_update b m⟩
  | delete key => exact ⟨b, .refl rfl, reports_remove b key true⟩
  | deleteLast => exact ⟨b, .refl rfl, reports_deleteLast b⟩
  | deleteAll => exact ⟨b, .refl rfl, reports_deleteAll b⟩
  | insertBefore m anchor =>
      refine ⟨b, .refl rfl, ?_⟩
      simp only [perform]
      cases h : b.insertBefore m anchor with
      | ok b' => exact reports_insertBefore h
      | error e => exact Reports.refl b
  | swap key other => exact ⟨b, .refl rfl, reports_swap b key other⟩
  | moveActive forward => exact ⟨b, .refl rfl, reports_moveActive b forward⟩
  | select place => exact ⟨b, .refl rfl, reports_select b place⟩
  | selectPrevious => exact ⟨b, .refl rfl, reports_openAt ..⟩
  | selectNext => exact ⟨b, .refl rfl, reports_openAt ..⟩
  | editPrevious => exact ⟨b, .refl rfl, reports_editPrevious b⟩
  | editNext => exact ⟨b, .refl rfl, reports_editNext b⟩
  | toFirst => exact ⟨b, .refl rfl, reports_toFirst b⟩
  | toEnd => exact ⟨b, .refl rfl, reports_toEnd b⟩
  | sync row => exact absurd rfl (hrow row)
  | complete => exact ⟨b, .refl rfl, reports_complete b⟩
  | drop target type data => exact ⟨b, .refl rfl, reports_drop b target type data⟩

end Bar

end QueryBar
