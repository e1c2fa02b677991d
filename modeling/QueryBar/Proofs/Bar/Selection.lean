/-
The open matcher is the one at the active place.

Every operation comes to one change of the row, and each kind of change either closes the edit
or moves the active place along with its matcher.  That the last matcher is the only one to be
removed from under an edit needs the keys of the row to be apart, and they stay apart as long as
the owner adds no key that is there already or that the supply is still to hand out.

Without any such care there is a place exactly if there is an edit.
-/
import QueryBar.Proofs.Bar.Effects
import QueryBar.Proofs.Bar.Rows
import QueryBar.Proofs.Bar.Watch
import QueryBar.Proofs.Keys

namespace QueryBar.Bar

variable {b b' : Bar} {operation : Operation} {e : RowChange}

/-! ### Bars that there can be -/

/-- A bar that has just been set up. -/
inductive Built : Bar → Prop
  | new (config : Config) (owner : Nat) : Built (.new config owner)
  | equip {b b' : Bar} (h : Built b) (hequips : Watch.Equips b b') : Built b'

/-- A bar after any use of it, and it may be set up anew at any time. -/
inductive Reachable : Bar → Prop
  | new (config : Config) (owner : Nat) : Reachable (.new config owner)
  | equip {b b' : Bar} (h : Reachable b) (hequips : Watch.Equips b b') : Reachable b'
  | step {b : Bar} (h : Reachable b) (operation : Operation) : Reachable (b.perform operation).1

theorem Reachable.run (h : Reachable b) (history : List Operation) :
    Reachable (b.run history) := by
  induction history generalizing b with
  | nil => exact h
  | cons operation rest ih => exact ih (h.step operation)

/-- The owner brings in no row of its own, and adds no key that is in the row or to come. -/
structure Welcomes (b : Bar) (operation : Operation) : Prop where
  added : ∀ m ∈ operation.added?, m.key ∉ b.matchers.map (·.key) ∧ ¬ b.keys.Owes m.key
  stays : ∀ row, operation ≠ .sync row

/-- The keys of the row are apart from each other and from those to come. -/
structure KeysApart (b : Bar) : Prop where
  distinct : (b.matchers.map (·.key)).Nodup
  unowed : ∀ m ∈ b.matchers, ¬ b.keys.Owes m.key

/-- A bar whose owner takes care of the keys from the start.  Others may draw keys from the same
supply at any time. -/
inductive Tended : Bar → Prop
  | built {b : Bar} (h : Built b) (hkeys : b.KeysApart) : Tended b
  | drawn {b : Bar} (h : Tended b) : Tended (b.withKeys b.keys.advance)
  | step {b : Bar} (h : Tended b) (operation : Operation) (hwelcome : b.Welcomes operation) :
      Tended (b.perform operation).1

/-! ### A place exactly if there is an edit -/

/-- There is an active place exactly if a matcher is edited. -/
def Paired (b : Bar) : Prop := b.active.isSome = b.box.matcher.isSome

theorem Closed.paired (h : b.Closed) : b.Paired := by
  unfold Paired
  rw [h.active, h.held]
  rfl

theorem KeepsOpen.paired (h : b.KeepsOpen b') (hpaired : b.Paired) : b'.Paired := by
  unfold Paired at hpaired ⊢
  rw [h.active, h.held, hpaired]

theorem Paired.closed_or_open (h : b.Paired) :
    b.Closed ∨ ∃ i m, b.active = some i ∧ b.box.matcher = some m := by
  unfold Paired at h
  cases hactive : b.active with
  | none =>
      rw [hactive] at h
      have hnone := Option.isSome_eq_false_iff.mp h.symm
      exact Or.inl ⟨hactive, Option.isNone_iff_eq_none.mp hnone⟩
  | some i =>
      rw [hactive] at h
      obtain ⟨m, hheld⟩ := Option.isSome_iff_exists.mp h.symm
      exact Or.inr ⟨i, m, rfl, hheld⟩

theorem Leaves.paired (h : b.Leaves b' e) (hpaired : b.Paired) : b'.Paired := by
  have hmoved : ∀ move : Nat → Nat, b'.active = b.active.map move →
      b'.box.matcher = b.box.matcher → b'.Paired := by
    intro move hactive hheld
    unfold Paired at hpaired ⊢
    rw [hactive, hheld, Option.isSome_map, hpaired]
  cases e with
  | stay => exact KeepsOpen.paired h hpaired
  | join m => exact KeepsOpen.paired h hpaired
  | close => exact Closed.paired h
  | clear => exact Closed.paired h
  | opened i =>
      obtain ⟨m, -, hactive, hheld⟩ := h
      unfold Paired
      rw [hactive, hheld]
      rfl
  | put i m => exact hmoved _ h.2.1 h.2.2
  | replace i m => exact h.2.paired
  | remove key => exact h.elim Closed.paired fun hkept => hkept.1.paired hpaired
  | exchange i j => exact hmoved _ h.2.2.1 h.2.2.2
  | take row => exact h.elim Closed.paired fun hkept => hkept.1.paired hpaired

theorem active_equips (h : Watch.Equips b b') : b'.active = b.active := by
  cases h <;> rfl

theorem held_equips (h : Watch.Equips b b') : b'.box.matcher = b.box.matcher := by
  cases h with
  | matchers ms => exact (alike_flagged { b with matchers := ms }).held
  | keys keys => rfl
  | validator check => rfl

theorem Built.closed (h : b.Built) : b.Closed := by
  induction h with
  | new config owner => exact ⟨rfl, rfl⟩
  | equip _ hequips ih => exact KeepsOpen.closed ⟨active_equips hequips, held_equips hequips⟩ ih

/-- **There is an active place exactly if a matcher is edited**, whatever is done to a bar. -/
theorem paired_reachable (h : Reachable b) : b.Paired := by
  induction h with
  | new config owner => rfl
  | equip _ hequips ih => exact KeepsOpen.paired ⟨active_equips hequips, held_equips hequips⟩ ih
  | step _ operation ih =>
      obtain ⟨e, heffect⟩ := exists_effect _ operation
      exact heffect.opened.paired ih

/-! ### Keys stay apart -/

/-- What comes in of its own has a key that is not there yet and that is no more to come. -/
theorem Effect.incoming_key (h : Effect b operation b' e) (hwelcome : b.Welcomes operation)
    (hkeys : b.KeysApart) (hreplace : ∀ i m, e ≠ .replace i m) :
    ∀ m ∈ e.incoming?, m.key ∉ b.matchers.map (·.key) ∧ ¬ b'.keys.Owes m.key := by
  have hadded : ∀ m, operation.added? = some m →
      m.key ∉ b.matchers.map (·.key) ∧ ¬ b'.keys.Owes m.key := by
    intro m hm
    obtain ⟨habsent, hunowed⟩ := hwelcome.added m hm
    exact ⟨habsent, KeySupply.not_owes_of_drawn h.supply hunowed⟩
  have hdrawn : ∀ m : Matcher, m.key = b.keys.next → b'.keys = b.keys.advance →
      m.key ∉ b.matchers.map (·.key) ∧ ¬ b'.keys.Owes m.key := by
    intro m hkey hsupply
    rw [hkey, hsupply]
    refine ⟨?_, b.keys.not_owes_next⟩
    intro hmem
    obtain ⟨n, hn, hsame⟩ := List.mem_map.mp hmem
    exact hkeys.unowed n hn (hsame ▸ b.keys.owes_next)
  intro m hm
  have hsourced := h.sourced
  cases e with
  | join n =>
      obtain rfl := Option.some.inj hm
      exact hsourced.elim (hadded n) fun hbox => hdrawn n hbox.2.1 hbox.2.2.1
  | put i n =>
      obtain rfl := Option.some.inj hm
      exact hsourced.elim (hadded n) fun hbox => hdrawn n hbox.1 hbox.2.1
  | replace i n => exact absurd rfl (hreplace i n)
  | _ => contradiction

/-- The keys stay apart under every change but the taking of a row. -/
theorem Effect.keysApart (h : Effect b operation b' e) (hwelcome : b.Welcomes operation)
    (hkeys : b.KeysApart) : b'.KeysApart := by
  have hsupply := h.supply
  have hunowed : ∀ key ∈ b.matchers.map (·.key), ¬ b'.keys.Owes key := by
    intro key hkey
    obtain ⟨m, hm, rfl⟩ := List.mem_map.mp hkey
    exact KeySupply.not_owes_of_drawn hsupply (hkeys.unowed m hm)
  have htake : ∀ row, e ≠ .take row := by
    rintro row rfl
    exact hwelcome.stays row h.sourced
  by_cases hreplace : ∃ i m, e = .replace i m
  · obtain ⟨i, m, rfl⟩ := hreplace
    have hsame : b'.matchers.map (·.key) = b.matchers.map (·.key) := by
      rw [h.row]
      exact RowChange.map_key_replace h.opened.1
    refine ⟨hsame ▸ hkeys.distinct, fun n hn => hunowed n.key ?_⟩
    exact hsame ▸ List.mem_map_of_mem hn
  · have hincoming := h.incoming_key hwelcome hkeys fun i m he => hreplace ⟨i, m, he⟩
    constructor
    · rw [h.row]
      exact RowChange.nodup_map_key_apply htake hkeys.distinct fun m hm => (hincoming m hm).1
    · intro m hm
      rw [h.row] at hm
      rcases RowChange.mem_of_mem_apply htake hm with hcame | hold
      · exact (hincoming m hcame).2
      · exact hunowed m.key (List.mem_map_of_mem hold)

/-! ### The open matcher is the one at the active place -/

/-- No matcher is open, or the one that is open stands at the active place. -/
def InStep (b : Bar) : Prop :=
  b.Closed ∨ ∃ i m, b.active = some i ∧ b.matchers[i]? = some m ∧ b.box.matcher = some m

/-- The active place moves as its matcher does. -/
theorem InStep.moved {move : Nat → Nat} (h : b.InStep) (hactive : b'.active = b.active.map move)
    (hheld : b'.box.matcher = b.box.matcher)
    (hrow : ∀ a m, b.active = some a → b.matchers[a]? = some m → b'.matchers[move a]? = some m) :
    b'.InStep := by
  rcases h with hclosed | ⟨i, m, hi, hm, hopen⟩
  · exact Or.inl ⟨by rw [hactive, hclosed.active, Option.map_none], hheld.trans hclosed.held⟩
  · exact Or.inr ⟨move i, m, by rw [hactive, hi, Option.map_some], hrow i m hi hm,
      hheld.trans hopen⟩

theorem InStep.kept (h : b.InStep) (hkept : b.KeepsOpen b')
    (hrow : ∀ a m, b.active = some a → b.matchers[a]? = some m → b'.matchers[a]? = some m) :
    b'.InStep :=
  h.moved (by rw [hkept.active, Option.map_id']) hkept.held hrow

/-- No change but the taking of a row leaves the open matcher behind. -/
theorem Effect.inStep (h : Effect b operation b' e) (htake : ∀ row, e ≠ .take row)
    (hdistinct : (b.matchers.map (·.key)).Nodup) (hstep : b.InStep) : b'.InStep := by
  have hrow := h.row
  have hopened := h.opened
  cases e with
  | stay => exact hstep.kept hopened fun a m _ hm => hrow ▸ hm
  | close => exact Or.inl hopened
  | clear => exact Or.inl hopened
  | opened i =>
      obtain ⟨m, hm, hactive, hheld⟩ := hopened
      exact Or.inr ⟨i, m, hactive, hrow ▸ hm, hheld⟩
  | join n =>
      refine hstep.kept hopened fun a m _ hm => ?_
      obtain ⟨ha, -⟩ := List.getElem?_eq_some_iff.mp hm
      rw [hrow]
      exact (List.getElem?_append_left ha).trans hm
  | put i n =>
      obtain ⟨hi, hactive, hheld⟩ := hopened
      refine hstep.moved hactive hheld fun a m _ hm => ?_
      rw [hrow, RowChange.getElem?_put (Nat.le_of_lt hi)]
      exact hm
  | replace i n => exact Or.inl hopened.2
  | remove key =>
      rcases hopened with hclosed | ⟨hkept, hlast⟩
      · exact Or.inl hclosed
      · refine hstep.kept hkept fun a m ha hm => ?_
        obtain ⟨hstays, hkey⟩ := hlast a ha
        have hdropped : b'.matchers = b.matchers.dropLast :=
          hrow.trans (RowChange.filter_last hdistinct hkey)
        rw [hdropped, List.length_dropLast] at hstays
        rw [hdropped, List.getElem?_dropLast, if_pos hstays]
        exact hm
  | exchange i j =>
      obtain ⟨hi, hj, hactive, hheld⟩ := hopened
      refine hstep.moved hactive hheld fun a m _ hm => ?_
      rw [hrow, RowChange.getElem?_exchange hi hj]
      exact hm
  | take row => exact absurd rfl (htake row)

/-- **What takes the place of a matcher takes that of the open one**, at the active place and under
its key, unless it was handed to the bar. -/
theorem Effect.replaces {i : Nat} {m : Matcher} (h : Effect b operation b' (.replace i m))
    (hown : operation ≠ .update m) (hdistinct : (b.matchers.map (·.key)).Nodup)
    (hstep : b.InStep) :
    ∃ old, b.active = some i ∧ b.matchers[i]? = some old ∧ b.box.matcher = some old ∧
      m.key = old.key ∧ b.surroundings.Clears m false := by
  obtain ⟨⟨old, hold, hkey⟩, hclears⟩ := h.sourced.resolve_left hown
  rcases hstep with hclosed | ⟨a, held, hactive, hplaced, hheld⟩
  · exact absurd (hclosed.held.symm.trans hold) (by simp)
  · obtain rfl := Option.some.inj (hheld.symm.trans hold)
    -- The matcher with the key is the open one, which stands at the active place.
    have hfound : b.placeOf? m.key = some a := by
      rw [hkey]
      exact RowChange.findIdx?_key hdistinct hplaced
    obtain rfl := Option.some.inj (h.opened.1.symm.trans hfound)
    exact ⟨held, hactive, hplaced, hheld, hkey, hclears⟩

theorem Tended.keysApart (h : Tended b) : b.KeysApart := by
  induction h with
  | built _ hkeys => exact hkeys
  | drawn _ ih => exact ⟨ih.distinct, fun m hm howes => ih.unowed m hm howes.of_advance⟩
  | step _ operation hwelcome ih =>
      obtain ⟨e, heffect⟩ := exists_effect _ operation
      exact heffect.keysApart hwelcome ih

theorem Tended.inStep (h : Tended b) : b.InStep := by
  induction h with
  | built hbuilt _ => exact Or.inl hbuilt.closed
  | drawn _ ih => exact ih.kept ⟨rfl, rfl⟩ fun _ _ _ hm => hm
  | step h operation hwelcome ih =>
      obtain ⟨e, heffect⟩ := exists_effect _ operation
      refine heffect.inStep ?_ h.keysApart.distinct ih
      rintro row rfl
      exact hwelcome.stays row heffect.sourced

/-- **The open matcher is the one at the active place**, and there is none exactly if there is no
active place, as long as the keys are taken care of. -/
theorem selection_follows_matcher (h : Tended b) :
    (b.active = none ↔ b.box.matcher = none) ∧
      ∀ i, b.active = some i → i < b.matchers.length ∧ b.box.matcher = b.matchers[i]? := by
  rcases h.inStep with ⟨hactive, hheld⟩ | ⟨place, m, hactive, hm, hheld⟩
  · rw [hactive, hheld]
    exact ⟨iff_of_true rfl rfl, fun i hi => by contradiction⟩
  · rw [hactive, hheld]
    refine ⟨by simp, fun i hi => ?_⟩
    obtain rfl := Option.some.inj hi
    obtain ⟨hi, -⟩ := List.getElem?_eq_some_iff.mp hm
    exact ⟨hi, hm.symm⟩

/-- A matcher of the colours. -/
def colour (key text : String) : Matcher :=
  { key, operator := .and, comparison := "=", source := "colour", value := .text text, text }

/-- A bar with a row of two colours. -/
def twoColours : Bar :=
  (Bar.new (.ofSources [{ name := "colour", title := "Colours", comparisons := ["="] }])
    0).withMatchers [colour "a" "red", colour "b" "green"]

theorem tended_twoColours : Tended twoColours := by
  refine .built (.equip (.new ..) (.matchers _)) ⟨by decide, ?_⟩
  intro m hm
  have hkeys : ∀ m ∈ twoColours.matchers, ¬ twoColours.keys.stem.toList <+: m.key.toList := by
    decide
  exact KeySupply.not_owes_of_stem (hkeys m hm)

theorem selection_follows_matcher_twoColours :
    let history : List Operation :=
      [.select 1, .input "and =blue", .insertBefore (colour "c" "blue") (some "b"),
        .swap "a" "b", .deleteLast]
    let b := twoColours.run history
    b.Tended ∧ b.matchers.map (·.key) = ["b", "c"] ∧ b.active = some 0 ∧
      b.box.matcher.map (·.key) = some "b" ∧ b.box.matcher = b.matchers[0]? := by
  intro history b
  have htended : b.Tended := by
    refine .step (.step (.step (.step (.step tended_twoColours (.select 1) ?_)
      (.input "and =blue") ?_) (.insertBefore (colour "c" "blue") (some "b")) ?_)
      (.swap "a" "b") ?_) .deleteLast ?_
    case refine_3 =>
      refine ⟨fun m hm => ?_, fun _ => by simp⟩
      obtain rfl := Option.some.inj hm
      exact ⟨by decide, KeySupply.not_owes_of_stem (by decide)⟩
    all_goals exact ⟨fun m hm => by contradiction, fun _ => by simp⟩
  have hactive : b.active = some 0 := by decide
  refine ⟨htended, by decide, hactive, by decide, ?_⟩
  exact ((selection_follows_matcher htended).2 0 hactive).2

end QueryBar.Bar
