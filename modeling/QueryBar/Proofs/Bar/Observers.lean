/-
Which matcher the observer sees marked.

The bar marks the edited matcher by its key, and it takes matchers as they are.  So the edited
matcher is the only one that is ever marked if the keys are apart and the owner hands over none that
is marked already (`Minds`).

The mark is told once in an edit, with the first text that differs from what is in the box.  The box
itself keeps in mind whether there was such a text (`Neat.touched_through`), and it does so as long
as the same matcher is edited.
-/
import QueryBar.Proofs.Bar.Provenance
import QueryBar.Proofs.Bar.Told

namespace QueryBar

/-- The matcher that the owner hands over with an operation. -/
def Operation.handed? : Operation → Option Matcher
  | .add m | .update m | .insertBefore m _ => some m
  | _ => none

namespace Bar

/-- What is true of each thing when it happens. -/
def AtEach (P : Bar → Happening → Prop) (b : Bar) : List Happening → Prop
  | [] => True
  | happening :: rest => P b happening ∧ AtEach P (b.meet happening) rest

variable {b start : Bar} {operation : Operation} {happening : Happening}
  {history stretch : List Happening} {m : Matcher} {row : List Matcher} {key : String}

theorem through_append (b : Bar) (history more : List Happening) :
    b.through (history ++ more) = (b.through history).through more := List.foldl_append

theorem atEach_append {P : Bar → Happening → Prop} (b : Bar) (history more : List Happening) :
    b.AtEach P (history ++ more) ↔ b.AtEach P history ∧ (b.through history).AtEach P more := by
  induction history generalizing b with
  | nil => exact ⟨fun h => ⟨trivial, h⟩, And.right⟩
  | cons happening rest ih =>
      have hrest := ih (b.meet happening)
      exact (and_congr_right fun _ => hrest).trans and_assoc.symm

/-! ### Care -/

/-- The owner brings in no row of its own, keeps keys apart, and hands over nothing that is marked
already. -/
def Minds (b : Bar) : Happening → Prop
  | .done operation => b.Welcomes operation ∧ ∀ m ∈ operation.handed?, m.changing = false
  | .drawn => True

theorem Minds.stays (h : b.Minds happening) (row : List Matcher) :
    happening ≠ .done (.sync row) := by
  rintro rfl
  exact h.1.stays row rfl

theorem not_sync_mem_of_minds (h : b.AtEach Minds history) (row : List Matcher) :
    .done (.sync row) ∉ history := by
  induction history generalizing b with
  | nil => exact List.not_mem_nil
  | cons happening rest ih =>
      rw [List.mem_cons, not_or]
      exact ⟨(h.1.stays row).symm, ih h.2⟩

/-- The keys are taken care of, and no matcher of the row is marked. -/
structure Neat (b : Bar) : Prop where
  tended : Tended b
  plain : marks b.matchers = false

theorem changing_of_mem_notices {n : Notice} (hn : n ∈ b.notices operation)
    (hm : n.incoming? = some m) : m.changing = false := by
  cases operation with
  | input text | compose operator comparison => exact EditBox.plain_typeText hn hm
  | key press => exact (b.box.course_key b.surroundings b.keys press).plain hn hm
  | choose slot insert => exact (b.box.course_select b.surroundings b.keys slot insert).plain hn hm
  | focus =>
      rw [List.mem_singleton.mp hn] at hm
      contradiction
  | _ => contradiction

/-- What is in the row after an operation was there before, was handed over, or is a wish of the open
box. -/
theorem mem_perform_cases (hrow : ∀ row, operation ≠ .sync row)
    (hm : m ∈ (b.perform operation).1.matchers) :
    m ∈ b.matchers ∨ operation.handed? = some m ∨ ∃ n ∈ b.notices operation,
      n.incoming? = some m := by
  -- What is handed over comes into the row by one change of it.
  have hcomes : ∀ {b' : Bar} {e : RowChange}, Change b b' e → (∀ row, e ≠ .take row) →
      (∀ n, e.incoming? = some n → operation.handed? = some n) → m ∈ b'.matchers →
        m ∈ b.matchers ∨ operation.handed? = some m ∨ ∃ n ∈ b.notices operation,
          n.incoming? = some m := by
    intro b' e hchange htake hhanded hm
    rw [hchange.row] at hm
    exact (RowChange.mem_of_mem_apply htake hm).symm.imp_right fun h => Or.inl (hhanded m h)
  cases operation with
  | add n => exact hcomes (change_add b n) (by simp) (fun _ h => h) hm
  | update n =>
      rcases change_update b n with hchange | ⟨i, hchange⟩
      · exact hcomes hchange (by simp) (by simp [RowChange.incoming?]) hm
      · exact hcomes hchange (by simp) (fun _ h => h) hm
  | insertBefore n anchor =>
      simp only [Bar.perform] at hm
      split at hm
      · rename_i b' hput
        rcases change_insertBefore hput with ⟨-, hchange⟩ | ⟨-, i, hchange⟩
        · exact hcomes hchange (by simp) (fun _ h => h) hm
        · exact hcomes hchange (by simp) (fun _ h => h) hm
      · exact Or.inl hm
  | sync row => exact absurd rfl (hrow row)
  | _ => exact (mem_perform_of_own rfl hm).imp_right Or.inr

theorem Neat.meet (h : b.Neat) (hminds : b.Minds happening) : (b.meet happening).Neat := by
  cases happening with
  | done operation =>
      obtain ⟨hwelcome, hplain⟩ := hminds
      refine ⟨h.tended.step operation hwelcome, not_marks_iff.mpr fun m hm => ?_⟩
      rcases mem_perform_cases hwelcome.stays hm with hold | hhanded | ⟨n, hn, hcame⟩
      · exact not_marks_iff.mp h.plain m hold
      · exact hplain m hhanded
      · exact changing_of_mem_notices hn hcame
  | drawn => exact ⟨h.tended.drawn, h.plain⟩

theorem Neat.through (h : b.Neat) (hminds : b.AtEach Minds history) : (b.through history).Neat := by
  induction history generalizing b with
  | nil => exact h
  | cons happening rest ih => exact ih (h.meet hminds.1) hminds.2

/-! ### Which matcher is marked -/

/-- Only the edited matcher, which stands at the active place, is marked in a row. -/
def MarksOnlyEdited (b : Bar) (row : List Matcher) : Prop :=
  ∀ i m, row[i]? = some m → m.changing = true →
    b.active = some i ∧ b.box.edited? = some m.key

/-- The edited matcher stands at the active place. -/
theorem InStep.edited (h : b.InStep) (hedited : b.box.edited? = some key) :
    ∃ i m, b.active = some i ∧ b.matchers[i]? = some m ∧ m.key = key := by
  rcases h with hclosed | ⟨i, m, hactive, hm, hheld⟩
  · exact absurd (hedited.symm.trans (EditBox.edited?_of_held hclosed.held)) (by simp)
  · exact ⟨i, m, hactive, hm,
      Option.some.inj ((EditBox.edited?_of_held hheld).symm.trans hedited)⟩

theorem Neat.marksOnlyEdited_marking (h : b.Neat) (hedited : b.box.edited? = some key) :
    b.MarksOnlyEdited (marking key b.matchers) := by
  intro i marked hplace hchanging
  unfold marking at hplace
  rw [List.getElem?_map] at hplace
  obtain ⟨m, hm, rfl⟩ := Option.map_eq_some_iff.mp hplace
  by_cases hkey : m.key = key
  · have hdistinct := h.tended.keysApart.distinct
    obtain ⟨place, held, hactive, hheld, hsame⟩ := h.tended.inStep.edited hedited
    have hplaces := (RowChange.findIdx?_key hdistinct hheld).symm.trans
      ((hsame.trans hkey.symm) ▸ RowChange.findIdx?_key hdistinct hm)
    rw [if_pos hkey]
    exact ⟨hactive.trans hplaces, hedited.trans (congrArg some hkey.symm)⟩
  · rw [if_neg hkey, not_marks_iff.mp h.plain m (List.mem_of_getElem? hm)] at hchanging
    contradiction

/-- **No row that the observer is told marks another matcher than the edited one.** -/
theorem Neat.marksOnlyEdited (h : b.Neat) (hminds : b.Minds happening)
    (hrow : row ∈ b.toldDuring [happening]) : b.MarksOnlyEdited row := by
  obtain ⟨rows, htold, hrows⟩ := exists_toldDuring_singleton (b := b) hminds.stays
  rw [htold] at hrow
  rcases List.mem_append.mp hrow with hannounced | hleft
  · rcases b.announced_cases happening with hnone | ⟨key, hedited, hmarked⟩
    · rw [hnone] at hannounced
      contradiction
    · rw [hmarked] at hannounced
      rw [List.mem_singleton.mp hannounced]
      exact h.marksOnlyEdited_marking hedited
  · intro i m hm hchanging
    rw [hrows row hleft] at hm
    rw [not_marks_iff.mp (h.meet hminds).plain m (List.mem_of_getElem? hm)] at hchanging
    contradiction

/-! ### How often the mark is told -/

/-- The text that is put into the open box. -/
def typed? (b : Bar) : Happening → Option String
  | .done (.input text) => some text
  | .done (.compose operator comparison) => some (b.box.composedText operator comparison)
  | _ => none

/-- Another text is put into the open box than there is. -/
def retypes (b : Bar) (happening : Happening) : Bool :=
  (b.typed? happening).any fun text => text != b.box.text

/-- The first text that differs from what is in the box has the edit of a matcher announced. -/
theorem announces_eq (b : Bar) (operation : Operation) :
    b.announces operation =
      (!b.box.touched && b.box.isEditing && b.retypes (.done operation)) := by
  cases operation <;> simp [announces, retypes, typed?, EditBox.announces]

/-- The edit is resumed, and the box takes note if another text is put into it, or another matcher is
edited, of which nothing has been told. -/
theorem session_meet (hown : ∀ row, happening ≠ .done (.sync row)) (h : b.Neat) :
    ((b.meet happening).box.edited? = b.box.edited? ∧ (b.meet happening).box.touched =
        (b.box.touched || b.box.isEditing && b.retypes happening)) ∨
      (b.meet happening).box.edited? ≠ b.box.edited? ∧
        (b.meet happening).box.touched = false := by
  cases happening with
  | done operation =>
      obtain ⟨heard, hannounced, hreports⟩ :=
        b.exists_announced operation fun row heq => hown row (heq ▸ rfl)
      have hstep : heard.InStep := h.tended.inStep.kept ⟨hannounced.active, hannounced.held⟩
        fun _ _ _ hm => hannounced.row ▸ hm
      have hedited := EditBox.edited?_of_held hannounced.held
      have htouched : heard.box.touched =
          (b.box.touched || b.box.isEditing && b.retypes (.done operation)) := by
        rw [hannounced.touched, announces_eq]
        cases b.box.touched <;> rfl
      cases hreports.session hstep (hannounced.row ▸ h.tended.keysApart.distinct) with
      | resumed hresumes =>
          refine Or.inl ⟨?_, hresumes.touched.trans htouched⟩
          exact (EditBox.edited?_of_held hresumes.matcher).trans hedited
      | another hother hnew => exact Or.inr ⟨fun hsame => hother (hsame.trans hedited.symm), hnew⟩
  | drawn =>
      refine Or.inl ⟨rfl, ?_⟩
      show b.box.touched = (b.box.touched || b.box.isEditing && false)
      rw [Bool.and_false, Bool.or_false]

/-- In the course of a history another text is put into the open box than there is. -/
def retypesDuring (b : Bar) : List Happening → Bool
  | [] => false
  | happening :: rest => b.retypes happening || (b.meet happening).retypesDuring rest

/-- The matcher with a key is edited when something happens. -/
def Edits (key : String) (b : Bar) (_ : Happening) : Prop := b.box.edited? = some key

theorem Edits.isEditing (h : b.Edits key happening) : b.box.isEditing = true := by
  unfold EditBox.isEditing
  rw [← Option.isSome_map, show b.box.matcher.map (·.key) = some key from h]
  rfl

theorem announced_of_edits (h : b.Edits key happening) :
    b.announced happening =
      if !b.box.touched && b.retypes happening then [marking key b.matchers] else [] := by
  cases happening with
  | done operation =>
      show b.announcement operation = _
      unfold announcement
      rw [announces_eq, h.isEditing, Bool.and_true, show b.box.edited? = some key from h]
      rfl
  | drawn =>
      show [] = if !b.box.touched && false then _ else _
      rw [Bool.and_false, if_neg Bool.false_ne_true]

/-- The rows with a mark that are told are the announcements. -/
theorem Neat.filter_marks_toldDuring (h : b.Neat) (hminds : b.Minds happening)
    (hedits : b.Edits key happening) :
    (b.toldDuring [happening]).filter marks = b.announced happening := by
  obtain ⟨rows, htold, hrows⟩ := exists_toldDuring_singleton (b := b) hminds.stays
  have hplain : rows.filter marks = [] := by
    refine List.filter_eq_nil_iff.mpr fun row hrow => ?_
    rw [hrows row hrow, (h.meet hminds).plain]
    exact Bool.false_ne_true
  have hmarked : (b.announced happening).filter marks = b.announced happening := by
    refine List.filter_eq_self.mpr fun row hrow => ?_
    rw [announced_of_edits hedits] at hrow
    split at hrow
    · obtain ⟨i, m, -, hm, hkey⟩ := h.tended.inStep.edited hedits
      rw [List.mem_singleton.mp hrow]
      exact marks_marking (List.mem_map.mpr ⟨m, List.mem_of_getElem? hm, hkey⟩)
    · contradiction
  rw [htold, List.filter_append, hmarked, hplain, List.append_nil]

/-- **As long as a matcher is edited its box knows whether another text has been put into it.** -/
theorem Neat.touched_through {early late : List Happening} (h : b.Neat)
    (hminds : b.AtEach Minds (early ++ happening :: late))
    (hedits : b.AtEach (Edits key) (early ++ happening :: late)) :
    (b.through early).box.touched = (b.box.touched || b.retypesDuring early) := by
  induction early generalizing b with
  | nil => exact (Bool.or_false _).symm
  | cons first rest ih =>
      have hnext : (b.meet first).box.edited? = some key := by
        cases rest <;> exact hedits.2.1
      rcases session_meet hminds.1.stays h with ⟨-, htouched⟩ | ⟨hother, -⟩
      · rw [hedits.1.isEditing, Bool.true_and] at htouched
        have hrest := ih (h.meet hminds.1) hminds.2 hedits.2
        rw [htouched, Bool.or_assoc] at hrest
        exact hrest
      · exact absurd (hnext.trans hedits.1.symm) hother

/-- An edit that is known to be touched is told no more, and any other one once at most. -/
theorem Neat.length_marked_le (h : b.Neat) (hminds : b.AtEach Minds stretch)
    (hedits : b.AtEach (Edits key) stretch) :
    b.box.touched.toNat + ((b.toldDuring stretch).filter marks).length ≤ 1 := by
  induction stretch generalizing b with
  | nil =>
      rw [toldDuring_nil]
      exact Bool.toNat_le _
  | cons happening rest ih =>
      have hfirst : ((b.toldDuring [happening]).filter marks).length =
          (!b.box.touched && b.retypes happening).toNat := by
        rw [h.filter_marks_toldDuring hminds.1 hedits.1, announced_of_edits hedits.1]
        cases !b.box.touched && b.retypes happening <;> rfl
      rw [toldDuring_cons (not_sync_mem_of_minds hminds), List.filter_append, List.length_append,
        hfirst]
      rcases session_meet hminds.1.stays h with ⟨-, htouched⟩ | ⟨hother, -⟩
      · have hrest := ih (h.meet hminds.1) hminds.2 hedits.2
        rw [htouched, hedits.1.isEditing, Bool.true_and] at hrest
        revert hrest
        cases b.box.touched <;> cases b.retypes happening <;> simp
      · -- The edit is over, so that nothing more happens in it.
        cases rest with
        | nil =>
            rw [toldDuring_nil]
            cases b.box.touched <;> cases b.retypes happening <;> simp
        | cons _ _ => exact absurd (hedits.2.1.trans hedits.1.symm) hother

/-- In the course of an edit the observer is told once at most that a matcher is being edited, with
the first text that differs from what is in the box. -/
structure MarksOnce (key : String) (b : Bar) (stretch : List Happening) : Prop where
  once : ((b.toldDuring stretch).filter marks).length ≤ 1
  first : ∀ early happening late, stretch = early ++ happening :: late →
    ((b.through early).toldDuring [happening]).filter marks =
      if !b.retypesDuring early && (b.through early).retypes happening then
        [marking key (b.through early).matchers]
      else []

theorem Neat.marksOnce (h : b.Neat) (hnew : b.box.touched = false)
    (hminds : b.AtEach Minds stretch) (hedits : b.AtEach (Edits key) stretch) :
    MarksOnce key b stretch where
  once := (Nat.le_add_left ..).trans (h.length_marked_le hminds hedits)
  first early happening late hstretch := by
    subst hstretch
    obtain ⟨hearly, hnow, -⟩ := (atEach_append b early (happening :: late)).mp hminds
    obtain ⟨-, hedited, -⟩ := (atEach_append b early (happening :: late)).mp hedits
    rw [(h.through hearly).filter_marks_toldDuring hnow hedited, announced_of_edits hedited,
      h.touched_through hminds hedits, hnew, Bool.false_or]

/-- **Observers never drift.**  Whatever is done to a bar, as long as no row is brought in from
outside, the last row that its observer was told, or else the one the bar was set up with, is the
present one up to its marks.  If the keys are taken care of and no matcher is handed over with a mark
on it, only the edited matcher is ever marked in a row that is told, and as long as the same matcher
is edited there is one such row at most: it is told with the first text that differs from what is in
the box, and it is the present row with the edited matcher marked. -/
theorem observer_never_drifts (hbuilt : start.Built)
    (hown : ∀ row, .done (.sync row) ∉ history) :
    unmarked ((start.through history).told.getLast?.getD start.matchers) =
        unmarked (start.through history).matchers ∧
      (start.KeysApart → marks start.matchers = false → start.AtEach Minds history →
        (∀ before happening later, history = before ++ happening :: later →
          ∀ row ∈ (start.through before).toldDuring [happening],
            (start.through before).MarksOnlyEdited row) ∧
        ∀ before opening stretch later key, history = before ++ opening :: (stretch ++ later) →
          (start.through before).box.edited? ≠ some key →
            (start.through (before ++ [opening])).AtEach (Edits key) stretch →
              MarksOnce key (start.through (before ++ [opening])) stretch) := by
  have hheard : Heard start.matchers start := by
    unfold Heard
    rw [told_built hbuilt]
    rfl
  refine ⟨hheard.through hown, fun hkeys hplain hminds => ?_⟩
  have hneat : start.Neat := ⟨.built hbuilt hkeys, hplain⟩
  refine ⟨?_, ?_⟩
  · rintro before happening later rfl row hrow
    obtain ⟨hbefore, hnow, -⟩ := (atEach_append ..).mp hminds
    exact (hneat.through hbefore).marksOnlyEdited hnow hrow
  · rintro before opening stretch later key rfl hother hedits
    obtain ⟨hbefore, hopening, hafter⟩ := (atEach_append ..).mp hminds
    obtain ⟨hstretch, -⟩ := (atEach_append ..).mp hafter
    have hopen := hneat.through hbefore
    rw [through_append] at hedits ⊢
    cases stretch with
    | nil =>
        refine ⟨?_, fun early happening late hnil => ?_⟩
        · rw [toldDuring_nil]
          exact Nat.zero_le 1
        · exact absurd hnil.symm (by simp)
    | cons happening rest =>
        refine (hopen.meet hopening).marksOnce ?_ hstretch hedits
        rcases session_meet hopening.stays hopen with ⟨hsame, -⟩ | ⟨-, hnew⟩
        · exact absurd (hsame.symm.trans hedits.1) hother
        · exact hnew

/-- Red is edited for a while, and then blue is added with a key that was drawn for it. -/
theorem observer_never_drifts_twoColours :
    let edit : List Happening := [.done (.input "gre"), .done (.input "green"), .done .blur]
    let blue := colour "m1" "blue"
    let history := .done (.select 0) :: (edit ++ [.drawn, .done (.add blue)])
    let opened := twoColours.through [.done (.select 0)]
    twoColours.Built ∧ (∀ row, .done (.sync row) ∉ history) ∧ twoColours.KeysApart ∧
      marks twoColours.matchers = false ∧ twoColours.AtEach Minds history ∧
      twoColours.box.edited? ≠ some "a" ∧ opened.AtEach (Edits "a") edit ∧
      (twoColours.through history).told =
        [[{ colour "a" "red" with changing := true }, colour "b" "green"],
          [colour "a" "red", colour "b" "green", blue]] ∧
      unmarked (twoColours.through history).matchers =
        [colour "a" "red", colour "b" "green", blue] ∧
      MarksOnce "a" opened edit := by
  intro edit blue history opened
  have hbuilt : twoColours.Built := .equip (.new ..) (.matchers _)
  have hkeys : twoColours.KeysApart := tended_twoColours.keysApart
  have hown : ∀ row, .done (.sync row) ∉ history := by
    intro row
    simp [history, edit]
  have hadded : (twoColours.through (.done (.select 0) :: (edit ++ [.drawn]))).Welcomes
      (.add blue) := by
    refine ⟨fun m hm => ?_, fun _ => by simp⟩
    obtain rfl := Option.some.inj hm
    exact ⟨by decide, KeySupply.not_owes_next twoColours.keys⟩
  have hminds : twoColours.AtEach Minds history := by
    refine ⟨?_, ?_, ?_, ?_, trivial, ⟨hadded, ?_⟩, trivial⟩
    case refine_5 => decide
    all_goals exact ⟨welcomes_of_own rfl, fun m hm => by contradiction⟩
  have hedits : opened.AtEach (Edits "a") edit :=
    ⟨show _ = _ by decide, show _ = _ by decide, show _ = _ by decide, trivial⟩
  have hother : twoColours.box.edited? ≠ some "a" := by decide
  have htold : (twoColours.through history).told =
      [[{ colour "a" "red" with changing := true }, colour "b" "green"],
        [colour "a" "red", colour "b" "green", blue]] := by
    decide +kernel
  obtain ⟨hlast, hmarks⟩ := observer_never_drifts hbuilt hown
  rw [htold] at hlast
  obtain ⟨-, honce⟩ := hmarks hkeys (by decide) hminds
  exact ⟨hbuilt, hown, hkeys, by decide, hminds, hother, hedits, htold, hlast.symm,
    honce [] (.done (.select 0)) edit [.drawn, .done (.add blue)] "a" rfl hother hedits⟩

/-- A matcher that is handed over with a mark on it is told with it, though nothing is edited.  And
where the key of a matcher was still to be handed out, the mark is on the one that has got the same
key as well. -/
theorem marks_beside_the_edit :
    let remarked : Matcher := { colour "a" "red" with changing := true }
    let clashing := (Bar.new twoColours.config 0).withMatchers [colour "m1" "red"]
    let opened := clashing.through [.done (.input "("), .done (.select 0)]
    ((twoColours.matchers.map (·.key)).Nodup ∧ marks twoColours.matchers = false ∧
      ∃ row ∈ twoColours.toldDuring [.done (.update remarked)],
        ¬ twoColours.MarksOnlyEdited row) ∧
      (clashing.matchers.map (·.key)).Nodup ∧ marks clashing.matchers = false ∧
        ∃ row ∈ opened.toldDuring [.done (.input "gre")], ¬ opened.MarksOnlyEdited row := by
  intro remarked clashing opened
  refine ⟨⟨by decide, by decide, [remarked, colour "b" "green"], by decide +kernel, ?_⟩,
    by decide, by decide, ?_⟩
  · intro honly
    exact absurd (honly 0 remarked rfl rfl).1 (by decide)
  · refine ⟨marking "m1" opened.matchers, by decide +kernel, fun honly => ?_⟩
    have hactive : opened.active = some 0 := by decide +kernel
    have hbracket : (marking "m1" opened.matchers)[1]? =
        some { Matcher.bracket "m1" .opening .and with changing := true } := by
      decide +kernel
    exact absurd (hactive.symm.trans (honly 1 _ hbracket rfl).1) (by decide)

end Bar

end QueryBar
