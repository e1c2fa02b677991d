/-
Commands that fail.

Seven commands on a row can fail, and each for reasons of its own: the anchor, the matcher or the
open place that it is about is not there, the row is too short, what is dropped cannot be read, or
the active function refuses the row.  `Needs` says what each of them asks of the bar.

All of them are carried out in full, with the observer told of the new row once, or not at all
(`AllOrNothing`): a command that fails has looked at everything it needs before the first thing is
changed.  A history therefore comes to the same bar without the commands in it that fail
(`run_carriedOut`).
-/
import QueryBar.Bar.Operation
import QueryBar.Proofs.Bar.Dragging
import QueryBar.Proofs.Bar.Selection
import QueryBar.Proofs.Buckets.Slots

namespace QueryBar

/-- The commands on a row that can fail. -/
def Operation.canFail : Operation → Bool
  | .insertBefore .. | .update _ | .delete _ | .swap .. | .moveActive _ | .drop .. | .complete => true
  | _ => false

/-- The answer to a command that has failed. -/
def Reply.isFailure : Reply → Bool
  | .flag carriedOut => !carriedOut
  | .failure _ | .completion (.error _) => true
  | _ => false

namespace Row

variable {f : QueryFunction} {row : List Matcher}

theorem missingSources_eq_nil_iff :
    missingSources f row = [] ↔ ∀ name ∈ f.required, ∃ m ∈ row, m.source = name := by
  unfold missingSources
  rw [List.filter_eq_nil_iff]
  simp

/-- A row is complete if it names every required source and passes the function's own check. -/
theorem refusal?_eq_none_iff : refusal? f row = none ↔
    (∀ name ∈ f.required, ∃ m ∈ row, m.source = name) ∧ f.objection? row = none := by
  unfold refusal?
  dsimp only
  rw [← missingSources_eq_nil_iff, ← List.isEmpty_iff]
  cases (missingSources f row).isEmpty with
  | true => simp
  | false => simp

end Row

namespace Bar

variable {b after : Bar} {needed needed' : Prop} {failed : Bool} {operation : Operation}

/-- What a command asks of the bar. -/
def Needs (b : Bar) : Operation → Prop
  | .insertBefore _ anchor => ∀ key ∈ anchor, key ∈ b.matchers.map (·.key)
  | .update m => m.key ∈ b.matchers.map (·.key)
  | .delete key => key ∈ b.matchers.map (·.key)
  | .swap key other => key ∈ b.matchers.map (·.key) ∧ other ∈ b.matchers.map (·.key)
  | .moveActive _ => b.active.isSome ∧ 1 < b.matchers.length
  | .drop target type data =>
    (∃ key, type = dragMark ++ key) ∧ ∃ m, Matcher.ofPayload? data = some m ∧
      target ∈ b.matchers.map (·.key) ∧ m.key ∈ b.matchers.map (·.key)
  | .complete => ∀ f ∈ b.function,
    (∀ name ∈ f.required, ∃ m ∈ b.matchers, m.source = name) ∧ f.objection? b.matchers = none
  | _ => True

/-- A command has been carried out, and the observer told of the new row once, or it has failed and
everything is as it was.  It fails exactly if what it needs is not there. -/
structure AllOrNothing (b after : Bar) (needed : Prop) (failed : Bool) : Prop where
  fails_iff : failed = true ↔ ¬ needed
  unchanged : failed = true → after = b
  told : failed = false → after.told = b.told ++ [after.matchers]

namespace AllOrNothing

theorem of_needed (h : needed) (htold : after.told = b.told ++ [after.matchers]) :
    AllOrNothing b after needed false :=
  ⟨by simp [h], by simp, fun _ => htold⟩

theorem of_not_needed (h : ¬ needed) : AllOrNothing b b needed true :=
  ⟨by simp [h], fun _ => rfl, by simp⟩

theorem congr (h : AllOrNothing b after needed failed) (hiff : needed ↔ needed') :
    AllOrNothing b after needed' failed :=
  ⟨h.fails_iff.trans (not_congr hiff), h.unchanged, h.told⟩

end AllOrNothing

/-! ### What the observer is told -/

theorem told_openAt (b : Bar) (place : Option Nat) : (b.openAt place).told = b.told := by
  unfold openAt
  dsimp only
  split <;> rfl

/-- A change of the row is told once, after the edit has been closed. -/
theorem told_openTrailing_rowChanged (b : Bar) :
    b.openTrailing.rowChanged.told = b.told ++ [b.openTrailing.rowChanged.matchers] :=
  congrArg (· ++ [b.openTrailing.matchers]) (told_openAt b none)

/-! ### The commands -/

theorem allOrNothing_insertBefore (b : Bar) (m : Matcher) (anchor : Option String) :
    AllOrNothing b (b.perform (.insertBefore m anchor)).1 (b.Needs (.insertBefore m anchor))
      (b.perform (.insertBefore m anchor)).2.isFailure := by
  cases anchor with
  | none => exact .of_needed (by simp [Needs]) rfl
  | some key =>
      simp only [perform, insertBefore]
      cases hplace : b.placeOf? key with
      | none =>
          refine .of_not_needed fun hneeds => ?_
          obtain ⟨i, hi⟩ := exists_placeOf?_iff.mpr (hneeds key rfl)
          simp [hplace] at hi
      | some i =>
          refine .of_needed (fun key' hkey' => ?_) rfl
          obtain rfl := Option.some.inj hkey'
          exact exists_placeOf?_iff.mp ⟨i, hplace⟩

theorem allOrNothing_update (b : Bar) (m : Matcher) :
    AllOrNothing b (b.update m).1 (m.key ∈ b.matchers.map (·.key)) (!(b.update m).2) := by
  rw [← exists_placeOf?_iff]
  unfold update
  cases hplace : b.placeOf? m.key with
  | none => exact .of_not_needed (by simp)
  | some i => exact .of_needed ⟨i, rfl⟩ (told_openTrailing_rowChanged _)

/-- A row gets shorter without a key exactly if the key is in it. -/
theorem length_filter_key_eq_iff (row : List Matcher) (key : String) :
    (row.filter (·.key != key)).length = row.length ↔ key ∉ row.map (·.key) := by
  rw [List.length_filter_eq_length_iff]
  simp

theorem allOrNothing_delete (b : Bar) (key : String) :
    AllOrNothing b (b.delete key).1 (key ∈ b.matchers.map (·.key)) (!(b.delete key).2) := by
  unfold delete remove
  dsimp only
  split
  · rename_i hsame
    exact .of_not_needed ((length_filter_key_eq_iff ..).mp hsame)
  · rename_i hshorter
    refine .of_needed (not_not.mp (mt (length_filter_key_eq_iff ..).mpr hshorter)) ?_
    split
    · exact told_openTrailing_rowChanged _
    · rfl

theorem allOrNothing_swap (b : Bar) (key other : String) :
    AllOrNothing b (b.swap key other).1
      (key ∈ b.matchers.map (·.key) ∧ other ∈ b.matchers.map (·.key)) (!(b.swap key other).2) := by
  rw [← exists_placeOf?_iff, ← exists_placeOf?_iff]
  unfold swap
  cases hplace : b.placeOf? key with
  | none => exact .of_not_needed (by simp)
  | some i =>
      cases hother : b.placeOf? other with
      | none => exact .of_not_needed (by simp)
      | some j => exact .of_needed ⟨⟨i, rfl⟩, ⟨j, rfl⟩⟩ rfl

/-- Beside an open matcher there always is another one to change places with, if there are two. -/
theorem allOrNothing_moveActive (b : Bar) (forward : Bool) :
    AllOrNothing b (b.moveActive forward).1
      (∃ a, b.active = some a ∧ a < b.matchers.length ∧ 1 < b.matchers.length)
      (!(b.moveActive forward).2) := by
  unfold moveActive
  dsimp only
  cases hactive : b.active with
  | none => exact .of_not_needed (by simp)
  | some a =>
      dsimp only
      split
      · rename_i hshort
        exact .of_not_needed fun ⟨_, _, _, hlong⟩ => absurd hlong (Nat.not_lt.mpr hshort)
      · rename_i hlong
        split
        · rename_i m n hm hn
          refine (allOrNothing_swap b m.key n.key).congr (iff_of_true ⟨?_, ?_⟩ ?_)
          · exact List.mem_map_of_mem (List.mem_of_getElem? hm)
          · exact List.mem_map_of_mem (List.mem_of_getElem? hn)
          · exact ⟨a, rfl, (List.getElem?_eq_some_iff.mp hm).1, Nat.not_le.mp hlong⟩
        · rename_i hnone
          refine .of_not_needed fun ⟨_, heq, ha, _⟩ => ?_
          obtain rfl := Option.some.inj heq
          exact hnone _ _ (List.getElem?_eq_getElem ha)
            (List.getElem?_eq_getElem (Cycle.go_lt ha forward))

theorem isDragType_iff {type : String} :
    isDragType type = true ↔ ∃ key, type = dragMark ++ key := by
  constructor
  · intro h
    obtain ⟨rest, hrest⟩ := List.isPrefixOf_iff_prefix.mp h
    refine ⟨String.ofList rest, String.toList_injective ?_⟩
    rw [String.toList_append, String.toList_ofList, hrest]
  · rintro ⟨key, rfl⟩
    exact isDragType_mark key

theorem allOrNothing_drop (b : Bar) (target type data : String) :
    AllOrNothing b (b.drop target type data).1 (b.Needs (.drop target type data))
      (!(b.drop target type data).2) := by
  unfold drop
  split
  · rename_i htype
    split
    · rename_i m hread
      refine (allOrNothing_swap b target m.key).congr ⟨?_, ?_⟩
      · exact fun hkeys => ⟨isDragType_iff.mp htype, m, hread, hkeys⟩
      · rintro ⟨-, n, hread', hkeys⟩
        obtain rfl := Option.some.inj (hread.symm.trans hread')
        exact hkeys
    · rename_i hunread
      exact .of_not_needed fun ⟨_, m, hread, _⟩ => absurd (hunread.symm.trans hread) (by simp)
  · rename_i htype
    exact .of_not_needed fun ⟨hmark, _⟩ => htype (isDragType_iff.mpr hmark)

theorem needs_complete_iff : b.Needs .complete ↔
    (b.function.bind fun f => Row.refusal? f b.matchers) = none := by
  simp only [Needs, Option.bind_eq_none_iff, Row.refusal?_eq_none_iff, Option.mem_def]

theorem allOrNothing_complete (b : Bar) :
    AllOrNothing b (b.perform .complete).1 (b.Needs .complete)
      (b.perform .complete).2.isFailure := by
  have hneeds := needs_complete_iff (b := b)
  simp only [perform, complete]
  cases hrefusal : b.function.bind fun f => Row.refusal? f b.matchers with
  | some refusal => exact .of_not_needed (by simp [hneeds, hrefusal])
  | none =>
      refine .of_needed (hneeds.mpr hrefusal) ?_
      exact congrArg (· ++ [_]) (told_openAt _ none)

/-! ### All of them -/

/-- **A command that fails leaves everything as it was**, whatever it needed. -/
theorem perform_of_failure (b : Bar) (hcommand : operation.canFail = true)
    (hfailure : (b.perform operation).2.isFailure = true) : (b.perform operation).1 = b := by
  cases operation with
  | insertBefore m anchor => exact (allOrNothing_insertBefore b m anchor).unchanged hfailure
  | update m => exact (allOrNothing_update b m).unchanged hfailure
  | delete key => exact (allOrNothing_delete b key).unchanged hfailure
  | swap key other => exact (allOrNothing_swap b key other).unchanged hfailure
  | moveActive forward => exact (allOrNothing_moveActive b forward).unchanged hfailure
  | drop target type data => exact (allOrNothing_drop b target type data).unchanged hfailure
  | complete => exact (allOrNothing_complete b).unchanged hfailure
  | _ => contradiction

/-- **A command on a bar whose open place is in the row is carried out, with the observer told of
the new row, or fails without a trace**, and it fails exactly if what it needs is not there. -/
theorem command_all_or_nothing (b : Bar) (hactive : ∀ a ∈ b.active, a < b.matchers.length)
    (operation : Operation) (hcommand : operation.canFail = true) :
    AllOrNothing b (b.perform operation).1 (b.Needs operation)
      (b.perform operation).2.isFailure := by
  cases operation with
  | insertBefore m anchor => exact allOrNothing_insertBefore b m anchor
  | update m => exact allOrNothing_update b m
  | delete key => exact allOrNothing_delete b key
  | swap key other => exact allOrNothing_swap b key other
  | moveActive forward =>
      refine (allOrNothing_moveActive b forward).congr ⟨?_, ?_⟩
      · rintro ⟨a, ha, -, hlong⟩
        exact ⟨by simp [ha], hlong⟩
      · rintro ⟨hopen, hlong⟩
        obtain ⟨a, ha⟩ := Option.isSome_iff_exists.mp hopen
        exact ⟨a, ha, hactive a ha, hlong⟩
  | drop target type data => exact allOrNothing_drop b target type data
  | complete => exact allOrNothing_complete b
  | _ => contradiction

theorem command_all_or_nothing_twoColours :
    let find : QueryFunction := { name := "Find", required := ["size"] }
    let b := { twoColours.run [.select 0] with function := some find }
    (∀ a ∈ b.active, a < b.matchers.length) ∧
      (b.perform .complete).2.isFailure = true ∧ (b.perform .complete).1 = b ∧
      (b.perform (.moveActive true)).1.told = [[colour "b" "green", colour "a" "red"]] := by
  intro find b
  have hactive : ∀ a ∈ b.active, a < b.matchers.length := by decide
  have hfails : (b.perform .complete).2.isFailure = true := by decide
  have hmoves : (b.perform (.moveActive true)).2.isFailure = false := by decide
  refine ⟨hactive, hfails, ?_, ?_⟩
  · exact (command_all_or_nothing b hactive .complete rfl).unchanged hfails
  · rw [(command_all_or_nothing b hactive (.moveActive true) rfl).told hmoves]
    decide

/-! ### Histories -/

/-- A history without the commands in it that fail. -/
def carriedOut (b : Bar) : List Operation → List Operation
  | [] => []
  | operation :: rest =>
    let (after, reply) := b.perform operation
    if operation.canFail && reply.isFailure then b.carriedOut rest
    else operation :: after.carriedOut rest

/-- **What fails may as well not have been tried.** -/
theorem run_carriedOut (b : Bar) (history : List Operation) :
    b.run (b.carriedOut history) = b.run history := by
  induction history generalizing b with
  | nil => rfl
  | cons operation rest ih =>
      have hrun : b.run (operation :: rest) = (b.perform operation).1.run rest := rfl
      simp only [carriedOut]
      split
      · rename_i hfails
        obtain ⟨hcommand, hfailure⟩ := (Bool.and_eq_true _ _).mp hfails
        rw [hrun, perform_of_failure b hcommand hfailure, ih]
      · rw [hrun]
        exact ih _

end Bar

end QueryBar
