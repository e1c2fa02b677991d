/-
What an operation changes in the row.

A notice of the open box leads to one change, and as a turn has at most one wish, so does a
turn.  A key that the box leaves to the bar has not been used by the box, so that the bar's
command is then the only change.  Every operation thus comes to one change (`exists_effect`).

`Sourced` says where a matcher that comes into the row is from: it was handed to the bar, or the
open box wished it into the row and nothing was said against it.  What holds in every state
that can be reached is shown by looking at each kind of change once.
-/
import QueryBar.Bar.Operation
import QueryBar.Proofs.Bar.Rows
import QueryBar.Proofs.EditBox.Notices
import QueryBar.Proofs.EditBox.Typing

namespace QueryBar

/-- The matcher that an operation adds to the row. -/
def Operation.added? : Operation → Option Matcher
  | .add m | .insertBefore m _ => some m
  | _ => none

/-- The operation is one of the open box: a text, a pick, a key, a choice, a highlight or an
answer. -/
def Operation.isOfBox : Operation → Bool
  | .input _ | .compose _ _ | .key _ | .choose _ _ | .highlight _ | .takeAnswer _ => true
  | _ => false

namespace Bar

variable {b b' : Bar} {e : RowChange}

/-! ### Acting for the box -/

/-- An aside changes nothing about the row. -/
theorem alike_heed_aside {n : Notice} (hn : n.isAside = true) (edited : Option String)
    (b : Bar) : Alike b (heed edited b n) := by
  cases n with
  | consulted m inserting => exact Alike.refl b
  | changing =>
      simp only [heed]
      split
      · exact ⟨⟨rfl, rfl⟩, rfl, rfl, rfl⟩
      · exact Alike.refl b
  | _ => contradiction

theorem alike_foldl_heed {asides : List Notice} (h : ∀ n ∈ asides, n.isAside = true)
    (edited : Option String) (b : Bar) : Alike b (asides.foldl (heed edited) b) := by
  induction asides generalizing b with
  | nil => exact Alike.refl b
  | cons n rest ih =>
      have hfirst := alike_heed_aside (h n (by simp)) edited b
      exact hfirst.trans (ih (fun n hn => h n (by simp [hn])) _)

/-- An aside leaves the open box alone. -/
theorem box_foldl_heed_aside (edited : Option String) {asides : List Notice}
    (h : ∀ n ∈ asides, n.isAside = true) (b : Bar) :
    (asides.foldl (heed edited) b).box = b.box := by
  induction asides generalizing b with
  | nil => rfl
  | cons n rest ih =>
      have hbox : (heed edited b n).box = b.box := by
        have hn := h n List.mem_cons_self
        cases n with
        | consulted m inserting => rfl
        | changing => cases edited <;> rfl
        | _ => contradiction
      rw [List.foldl_cons, ih (fun n hn => h n (List.mem_cons_of_mem _ hn)), hbox]

/-- Which wish of a box a change is made for, where the box edits the matcher with the key
`edited`. -/
def MadeFor (edited : Option String) (n : Notice) : RowChange → Prop
  | .join m => edited = none ∧ (n = .changed (some m) ∨ n = .insert m)
  | .put _ m => n = .insert m
  | .replace _ m => edited.isSome = true ∧ n = .changed (some m)
  | .take _ => False
  | _ => True

variable {edited : Option String} {n : Notice} {m : Matcher}

theorem madeFor_of_bringsIn (h : e.bringsIn = false) : MadeFor edited n e := by
  cases e <;> trivial

/-- **A wish of the open box leads to one change.** -/
theorem exists_change_heed (edited : Option String) (b : Bar) (n : Notice) :
    ∃ e, Change b (heed edited b n) e ∧ MadeFor edited n e := by
  have hplain : ∀ {b'}, Rearranges b b' → ∃ e, Change b b' e ∧ MadeFor edited n e :=
    fun ⟨e, hc, he⟩ => ⟨e, hc, madeFor_of_bringsIn he⟩
  cases n with
  | changed m =>
      cases m with
      | some m =>
          simp only [heed]
          split
          · rename_i hheld
            rcases change_update b m with hc | ⟨i, hc⟩
            · exact ⟨.stay, hc, trivial⟩
            · exact ⟨.replace i m, hc, hheld, rfl⟩
          · rename_i hheld
            rw [Bool.not_eq_true, Option.isSome_eq_false_iff, Option.isNone_iff_eq_none] at hheld
            exact ⟨.join m, change_add b m, hheld, Or.inl rfl⟩
      | none =>
          simp only [heed]
          split
          · exact hplain (rearranges_delete ..)
          · exact hplain (Rearranges.refl b)
  | consulted m inserting => exact hplain (Rearranges.refl b)
  | insert m =>
      show ∃ e, Change b ((b.insertBefore m edited).toOption.getD b) e ∧ _
      cases h : b.insertBefore m edited with
      | ok b' =>
          rcases change_insertBefore h with ⟨hnone, hc⟩ | ⟨-, i, hc⟩
          · exact ⟨.join m, hc, hnone, Or.inr rfl⟩
          · exact ⟨.put i m, hc, rfl⟩
      | error _ => exact hplain (Rearranges.refl b)
  | editPrevious deleting =>
      simp only [heed]
      split
      · exact hplain (rearranges_delete ..)
      · exact hplain (rearranges_editPrevious b)
  | editNext => exact hplain (rearranges_editNext b)
  | focus =>
      simp only [heed]
      split
      · exact hplain (rearranges_takeFocus b)
      · exact hplain (Rearranges.refl b)
  | cancel => exact hplain ⟨.close, change_openTrailing b, rfl⟩
  | changing =>
      simp only [heed]
      split
      · exact hplain (Alike.rearranges ⟨⟨rfl, rfl⟩, rfl, rfl, rfl⟩)
      · exact hplain (Rearranges.refl b)
  | setFunction f => exact hplain (alike_useFunction ..).rearranges
  | deleteFunction => exact hplain (alike_useFunction ..).rearranges

/-- A rearrangement brings nothing in. -/
theorem Rearranges.mem (h : Rearranges b b') (hm : m ∈ b'.matchers) : m ∈ b.matchers := by
  obtain ⟨e, hc, hbrings⟩ := h
  have htake : ∀ row, e ≠ .take row := by
    rintro row rfl
    contradiction
  rw [hc.row] at hm
  rcases RowChange.mem_of_mem_apply htake hm with hcame | hold
  · cases e <;> contradiction
  · exact hold

/-- Nothing comes into the row that was not wished into it. -/
theorem mem_heed (h : m ∈ (heed edited b n).matchers) :
    m ∈ b.matchers ∨ n.incoming? = some m := by
  obtain ⟨e, hc, hmade⟩ := exists_change_heed edited b n
  rw [hc.row] at h
  have htake : ∀ row, e ≠ .take row := by
    rintro row rfl
    exact hmade
  rcases RowChange.mem_of_mem_apply htake h with hcame | hold
  · refine Or.inr ?_
    cases e with
    | join n' =>
        obtain rfl := Option.some.inj hcame
        obtain ⟨-, rfl | rfl⟩ := hmade <;> rfl
    | put i n' =>
        obtain rfl := Option.some.inj hcame
        obtain rfl := hmade
        rfl
    | replace i n' =>
        obtain rfl := Option.some.inj hcame
        obtain ⟨-, rfl⟩ := hmade
        rfl
    | _ => contradiction
  · exact Or.inl hold

/-- **What a turn of the open box brings into the row is in one of its notices.** -/
theorem mem_takeTurn {α : Type} {turn : Turn α} (h : m ∈ (b.takeTurn turn).1.matchers) :
    m ∈ b.matchers ∨ ∃ n ∈ turn.notices, n.incoming? = some m := by
  have hfold : ∀ (edited : Option String) (notices : List Notice) (b : Bar),
      m ∈ (notices.foldl (heed edited) b).matchers →
        m ∈ b.matchers ∨ ∃ n ∈ notices, n.incoming? = some m := by
    intro edited notices
    induction notices with
    | nil => exact fun b h => Or.inl h
    | cons n rest ih =>
        intro b h
        rcases ih _ h with hheard | ⟨n', hn', hcame⟩
        · rcases mem_heed hheard with hold | hcame
          · exact Or.inl hold
          · exact Or.inr ⟨n, List.mem_cons_self, hcame⟩
        · exact Or.inr ⟨n', List.mem_cons_of_mem _ hn', hcame⟩
  exact hfold _ turn.notices { b with box := turn.box, keys := turn.keys } h

/-! ### Operations -/

/-- Where what comes into the row is from: it was handed to the bar, or the open box wished it into
the row, under a key that fits, and nothing was said against it. -/
def Sourced (b : Bar) (operation : Operation) (keys : KeySupply) : RowChange → Prop
  | .join m =>
    operation.added? = some m ∨
      b.box.matcher = none ∧ m.key = b.keys.next ∧ keys = b.keys.advance ∧
        ∃ inserting, b.surroundings.Clears m inserting
  | .put _ m =>
    operation.added? = some m ∨
      m.key = b.keys.next ∧ keys = b.keys.advance ∧ b.surroundings.Clears m true
  | .replace _ m =>
    operation = .update m ∨
      (∃ old, b.box.matcher = some old ∧ m.key = old.key) ∧ b.surroundings.Clears m false
  | .take row => operation = .sync row
  | _ => True

/-- What an operation comes to: one change, for which at most one key has been drawn. -/
structure Effect (b : Bar) (operation : Operation) (b' : Bar) (e : RowChange) : Prop where
  config : b'.config = b.config
  supply : b'.keys = b.keys ∨ b'.keys = b.keys.advance
  row : b'.matchers = e.apply b.matchers
  opened : b.Leaves b' e
  sourced : b.Sourced operation b'.keys e

variable {operation : Operation}

theorem Change.effect (h : Change b b' e) (hsourced : b.Sourced operation b.keys e) :
    Effect b operation b' e :=
  ⟨h.config, Or.inl h.keys, h.row, h.opened, h.keys.symm ▸ hsourced⟩

theorem Rearranges.effect (h : Rearranges b b') : ∃ e, Effect b operation b' e := by
  obtain ⟨e, hc, he⟩ := h
  refine ⟨e, hc.effect ?_⟩
  cases e <;> trivial

/-- A change that is made for a wish of an orderly turn brings in only what was cleared. -/
theorem MadeFor.sourced {after : KeySupply} (h : MadeFor (b.box.matcher.map (·.key)) n e)
    (hn : n.Grounded b.box.matcher b.surroundings b.keys after) :
    b.Sourced operation after e := by
  cases e with
  | join m =>
      obtain ⟨hclosed, hwish⟩ := h
      have hnone : b.box.matcher = none := Option.map_eq_none_iff.mp hclosed
      rcases hwish with rfl | rfl
      · obtain ⟨hclears, hkey⟩ := hn
        rw [hnone] at hkey
        exact Or.inr ⟨hnone, hkey.1, hkey.2, _, hclears⟩
      · obtain ⟨hclears, hkey, hdrawn⟩ := hn
        exact Or.inr ⟨hnone, hkey, hdrawn, _, hclears⟩
  | put i m =>
      obtain rfl := h
      obtain ⟨hclears, hkey, hdrawn⟩ := hn
      exact Or.inr ⟨hkey, hdrawn, hclears⟩
  | replace i m =>
      obtain ⟨hsome, rfl⟩ := h
      obtain ⟨hclears, hkey⟩ := hn
      rw [Option.isSome_map] at hsome
      obtain ⟨old, hold⟩ := Option.isSome_iff_exists.mp hsome
      rw [hold] at hkey
      exact Or.inr ⟨⟨old, hold, hkey⟩, hclears⟩
  | take row => exact h.elim
  | _ => trivial

/-- When the bar comes to the wish of a turn, it differs from what it was in its keys only, as far as
changes go. -/
theorem exists_heard {α : Type} {turn : Turn α} {asides : List Notice} {n : Notice}
    (hheld : turn.box.matcher = b.box.matcher) (hasides : ∀ n ∈ asides, n.isAside = true)
    (hnotices : turn.notices = asides ++ [n]) :
    ∃ heard, Alike { b with keys := turn.keys } heard ∧
      (b.takeTurn turn).1 = heed (b.box.matcher.map (·.key)) heard n := by
  have hbox : Alike { b with keys := turn.keys } { b with box := turn.box, keys := turn.keys } :=
    ⟨⟨rfl, hheld⟩, rfl, rfl, rfl⟩
  refine ⟨_, hbox.trans (alike_foldl_heed hasides (b.box.matcher.map (·.key)) _), ?_⟩
  unfold takeTurn
  dsimp only
  rw [hheld, hnotices, List.foldl_append, List.foldl_cons, List.foldl_nil]

/-- **A turn of the open box comes to one change.** -/
theorem exists_effect_takeTurn {α : Type} {turn : Turn α}
    (h : turn.Orderly b.box.matcher b.surroundings b.keys) :
    ∃ e, Effect b operation (b.takeTurn turn).1 e := by
  obtain ⟨hmatcher, hsupply, asides, wish, hnotices, hasides, hwish⟩ := h
  cases wish with
  | none =>
      rw [Option.toList_none, List.append_nil] at hnotices
      subst hnotices
      have hheard := alike_foldl_heed hasides (turn.box.matcher.map (·.key))
        { b with box := turn.box, keys := turn.keys }
      have hkeys : (b.takeTurn turn).1.keys = turn.keys := hheard.keys
      exact ⟨.stay, hheard.config, hkeys ▸ hsupply, hheard.row,
        ⟨hheard.active, hheard.held.trans hmatcher⟩, trivial⟩
  | some n =>
      obtain ⟨heard, hheard, hturn⟩ := exists_heard hmatcher hasides hnotices
      obtain ⟨e, hc, hmade⟩ := exists_change_heed (b.box.matcher.map (·.key)) heard n
      have hkeys : (b.takeTurn turn).1.keys = turn.keys := by
        rw [hturn, hc.keys]
        exact hheard.keys
      have hkept : b.KeepsOpen heard := ⟨hheard.active, hheard.held⟩
      refine ⟨e, ?_, hkeys ▸ hsupply, ?_, ?_, ?_⟩
      · rw [hturn]
        exact hc.config.trans hheard.config
      · rw [hturn, hc.row]
        exact congrArg e.apply hheard.row
      · rw [hturn]
        exact hc.opened.congr_left hkept hheard.row
      · rw [hkeys]
        exact hmade.sourced (hwish n rfl)

theorem exists_effect_input (b : Bar) (text : String) :
    ∃ e, Effect b operation (b.input text).1 e :=
  exists_effect_takeTurn (EditBox.orderly_typeText ..)

theorem exists_effect_choose (b : Bar) (slot : Nat) (insert : Bool) :
    ∃ e, Effect b operation (b.choose slot insert).1 e :=
  exists_effect_takeTurn (EditBox.course_select ..).orderly

theorem exists_effect_focus (b : Bar) : ∃ e, Effect b operation b.focus e :=
  exists_effect_takeTurn (b.box.orderly_focus b.surroundings b.keys)

/-- A key that the box leaves alone is for the bar. -/
theorem key_of_ignored {p : KeyPress} (h : (b.box.key b.surroundings b.keys p).answer = .ignored) :
    b.key p = (b.takeTurn (b.box.key b.surroundings b.keys p)).1.command p := if_pos h

/-- A key that the box uses is not looked at by the bar. -/
theorem key_of_used {p : KeyPress} (h : (b.box.key b.surroundings b.keys p).answer ≠ .ignored) :
    b.key p = ((b.takeTurn (b.box.key b.surroundings b.keys p)).1,
      .edit (b.box.key b.surroundings b.keys p).answer) := if_neg h

/-- **A key is used by the open box, or the bar acts on it** just as it was, apart from what only
the reader of the box takes notice of. -/
theorem key_cases (b : Bar) (p : KeyPress) :
    let turn := b.box.key b.surroundings b.keys p
    turn.answer ≠ .ignored ∧ (b.key p).1 = (b.takeTurn turn).1 ∨
      b.box.Resembles turn.box ∧ turn.notices = [] ∧
        (b.key p).1 = ({ b with box := turn.box }.command p).1 := by
  intro turn
  by_cases hignored : turn.answer = .ignored
  · obtain ⟨hbox, hkeys, hnotices⟩ :=
      (b.box.course_key b.surroundings b.keys p).of_ignored hignored
    have hleft : (b.takeTurn turn).1 = { b with box := turn.box } := by
      unfold takeTurn
      rw [hnotices, hkeys]
      rfl
    refine Or.inr ⟨hbox, hnotices, ?_⟩
    rw [key_of_ignored hignored, ← hleft]
  · refine Or.inl ⟨hignored, ?_⟩
    rw [key_of_used hignored]

theorem exists_effect_key (b : Bar) (p : KeyPress) :
    ∃ e, Effect b operation (b.key p).1 e := by
  rcases b.key_cases p with ⟨-, hkey⟩ | ⟨hbox, -, hkey⟩
  · rw [hkey]
    exact exists_effect_takeTurn (b.box.course_key b.surroundings b.keys p).orderly
  · rw [hkey]
    have hleft : Alike b { b with box := (b.box.key b.surroundings b.keys p).box } :=
      ⟨⟨rfl, hbox.matcher⟩, rfl, rfl, rfl⟩
    exact ((rearranges_command _ p).congr_left hleft).effect

/-! ### What the open box lets the bar know -/

/-- The notices that the open box gives in the course of an operation. -/
def notices (b : Bar) : Operation → List Notice
  | .input text => (b.box.typeText b.surroundings b.keys text).notices
  | .compose operator comparison =>
    (b.box.compose b.surroundings b.keys operator comparison).notices
  | .key press => (b.box.key b.surroundings b.keys press).notices
  | .choose slot insert => (b.box.select b.surroundings b.keys slot insert).notices
  | .focus => (b.box.focus b.keys).notices
  | _ => []

/-- **Where the box lets the bar know anything, the bar takes its turn over** and does nothing
else. -/
theorem exists_turn (b : Bar) (operation : Operation) (h : b.notices operation ≠ []) :
    ∃ turn : Turn Unit, turn.Orderly b.box.matcher b.surroundings b.keys ∧
      turn.notices = b.notices operation ∧ (b.perform operation).1 = (b.takeTurn turn).1 := by
  have hturn : ∀ {α : Type} (turn : Turn α), turn.Orderly b.box.matcher b.surroundings b.keys →
      ∃ silent : Turn Unit, silent.Orderly b.box.matcher b.surroundings b.keys ∧
        silent.notices = turn.notices ∧ (b.takeTurn turn).1 = (b.takeTurn silent).1 :=
    fun turn horderly => ⟨⟨turn.box, turn.keys, turn.notices, ()⟩,
      ⟨horderly.matcher, horderly.supply, horderly.notices⟩, rfl, rfl⟩
  cases operation with
  | input text =>
      exact hturn (b.box.typeText b.surroundings b.keys text) (EditBox.orderly_typeText ..)
  | compose operator comparison =>
      exact hturn (b.box.compose b.surroundings b.keys operator comparison)
        (EditBox.orderly_typeText ..)
  | key press =>
      rcases b.key_cases press with ⟨-, hkey⟩ | ⟨-, hnotices, -⟩
      · obtain ⟨turn, horderly, hnotices, htaken⟩ :=
          hturn _ (b.box.course_key b.surroundings b.keys press).orderly
        exact ⟨turn, horderly, hnotices, hkey.trans htaken⟩
      · exact absurd hnotices h
  | choose slot insert =>
      exact hturn _ (b.box.course_select b.surroundings b.keys slot insert).orderly
  | focus => exact hturn (b.box.focus b.keys) (b.box.orderly_focus b.surroundings b.keys)
  | _ => contradiction

/-- **What is done in the box brings nothing into the row but what is in its notices.** -/
theorem mem_perform (hbox : operation.isOfBox = true)
    (hm : m ∈ (b.perform operation).1.matchers) :
    m ∈ b.matchers ∨ ∃ n ∈ b.notices operation, n.incoming? = some m := by
  cases operation with
  | input text => exact mem_takeTurn hm
  | compose operator comparison => exact mem_takeTurn hm
  | choose slot insert => exact mem_takeTurn hm
  | highlight slot => exact Or.inl hm
  | takeAnswer answer => exact Or.inl hm
  | key press =>
      have hpressed : m ∈ (b.key press).1.matchers := hm
      rcases b.key_cases press with ⟨-, hkey⟩ | ⟨-, -, hkey⟩ <;> rw [hkey] at hpressed
      · exact mem_takeTurn hpressed
      · let left := { b with box := (b.box.key b.surroundings b.keys press).box }
        exact Or.inl ((rearranges_command left press).mem hpressed)
  | _ => contradiction

/-! ### All operations -/

/-- **Every operation comes to one change.** -/
theorem exists_effect (b : Bar) (operation : Operation) :
    ∃ e, Effect b operation (b.perform operation).1 e := by
  cases operation with
  | input text => exact exists_effect_input b text
  | compose operator comparison => exact exists_effect_input b _
  | key press => exact exists_effect_key b press
  | choose slot insert => exact exists_effect_choose b slot insert
  | highlight slot =>
      have hbox := b.box.resembles_highlight slot
      exact Rearranges.effect (Alike.rearranges ⟨⟨rfl, hbox.matcher⟩, rfl, rfl, rfl⟩)
  | takeAnswer answer =>
      obtain ⟨bs, hbox, -⟩ := b.box.takeAnswer_eq b.config answer
      exact Rearranges.effect (Alike.rearranges ⟨⟨rfl, hbox.matcher⟩, rfl, rfl, rfl⟩)
  | focus => exact exists_effect_focus b
  | blur => exact (rearranges_blur b).effect
  | add m => exact ⟨.join m, (change_add b m).effect (Or.inl rfl)⟩
  | update m =>
      rcases change_update b m with hc | ⟨i, hc⟩
      · exact ⟨.stay, hc.effect trivial⟩
      · exact ⟨.replace i m, hc.effect (Or.inl rfl)⟩
  | delete key => exact (rearranges_delete b key).effect
  | deleteLast => exact (rearranges_deleteLast b).effect
  | deleteAll => exact (rearranges_deleteAll b).effect
  | insertBefore m anchor =>
      unfold perform
      dsimp only
      split
      · rename_i hinsert
        rcases change_insertBefore hinsert with ⟨-, hc⟩ | ⟨-, i, hc⟩
        · exact ⟨.join m, hc.effect (Or.inl rfl)⟩
        · exact ⟨.put i m, hc.effect (Or.inl rfl)⟩
      · exact (Rearranges.refl b).effect
  | swap key other => exact (rearranges_swap b key other).effect
  | moveActive forward => exact (rearranges_moveActive b forward).effect
  | select place => exact (rearranges_select b place).effect
  | selectPrevious => exact (rearranges_openAt ..).effect
  | selectNext => exact (rearranges_openAt ..).effect
  | editPrevious => exact (rearranges_editPrevious b).effect
  | editNext => exact (rearranges_editNext b).effect
  | toFirst => exact (rearranges_toFirst b).effect
  | toEnd => exact (rearranges_toEnd b).effect
  | sync row =>
      rcases change_sync b row with hc | hc
      · exact ⟨.stay, hc.effect trivial⟩
      · exact ⟨.take row, hc.effect rfl⟩
  | complete => exact (rearranges_complete b).effect
  | drop target type data => exact (rearranges_drop b target type data).effect

/-- The configuration of a bar is fixed. -/
theorem config_run (b : Bar) (history : List Operation) : (b.run history).config = b.config := by
  induction history generalizing b with
  | nil => rfl
  | cons operation rest ih =>
      obtain ⟨e, heffect⟩ := exists_effect b operation
      exact (ih _).trans heffect.config

end Bar

end QueryBar
