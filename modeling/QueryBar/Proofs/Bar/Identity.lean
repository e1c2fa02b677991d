/-
Keys tell the matchers of a row apart.

A matcher that the open box wishes into the row either replaces the open one, whose key it takes
over, or has a key that was drawn for it.  No key is drawn twice, even where a candidate is
objected to and its key is wasted, and a row to start from keeps clear of the keys to come.
Nothing else puts a matcher into the row, unless the owner hands one over.
-/
import QueryBar.Proofs.Bar.Legality
import QueryBar.Proofs.Bar.Limits

namespace QueryBar.Bar

variable {b : Bar} {operation : Operation} {m old : Matcher}

theorem Tended.run {history : List Operation} (h : Tended b)
    (hown : ∀ operation ∈ history, operation.handsOver = false) : Tended (b.run history) := by
  induction history generalizing b with
  | nil => exact h
  | cons operation rest ih =>
      have hfirst := h.step operation (welcomes_of_own (hown operation List.mem_cons_self))
      exact ih hfirst fun later hlater => hown later (List.mem_cons_of_mem _ hlater)

/-- A matcher that is confirmed in an edit is the last thing the box lets the bar know. -/
theorem matchers_of_changed (hn : .changed (some m) ∈ b.notices operation)
    (hheld : b.box.matcher = some old) :
    m.key = old.key ∧ (b.perform operation).1.matchers =
      match b.placeOf? old.key with
      | none => b.matchers
      | some i => b.matchers.set i m := by
  obtain ⟨turn, horderly, hnotices, hperform⟩ :=
    b.exists_turn operation (List.ne_nil_of_mem hn)
  obtain ⟨asides, wish, hparts, hasides, hwish⟩ := horderly.notices
  rw [← hnotices, hparts] at hn
  have hlast : wish = some (.changed (some m)) := by
    rcases List.mem_append.mp hn with hn | hn
    · exact absurd (hasides _ hn) (by simp [Notice.isAside])
    · exact Option.mem_toList.mp hn
  obtain ⟨-, hkey⟩ := hwish _ (Option.mem_def.mpr hlast)
  rw [hheld] at hkey
  refine ⟨hkey, ?_⟩
  rw [hlast] at hparts
  obtain ⟨heard, hheard, hturn⟩ := exists_heard horderly.matcher hasides hparts
  have hrow : heard.matchers = b.matchers := hheard.row
  have hupdate := matchers_update heard m
  unfold placeOf? at hupdate ⊢
  rw [hrow, hkey] at hupdate
  rw [hperform, hturn, hheld]
  exact hupdate

/-- **Keys stay unique.**  In every state of a bar whose keys are taken care of from the start, the
keys of the row are apart.  What is confirmed in an edit has the key of the edited matcher and
takes its place, and whatever else gets into the row without being handed to the bar has a key
that has just been drawn. -/
theorem keys_stay_unique (h : Tended b) :
    (b.matchers.map (·.key)).Nodup ∧
      (∀ operation m old, .changed (some m) ∈ b.notices operation → b.box.matcher = some old →
        m.key = old.key ∧ ∃ i, b.active = some i ∧ b.matchers[i]? = some old ∧
          (b.perform operation).1.matchers = b.matchers.set i m) ∧
      ∀ operation, operation.handsOver = false →
        ∀ m ∈ (b.perform operation).1.matchers, m ∉ b.matchers →
          (m.key = b.keys.next ∧ (b.perform operation).1.keys = b.keys.advance) ∨
            ∃ i old, b.active = some i ∧ b.matchers[i]? = some old ∧ b.box.matcher = some old ∧
              m.key = old.key ∧ (b.perform operation).1.matchers = b.matchers.set i m := by
  have hdistinct := h.keysApart.distinct
  refine ⟨hdistinct, ?_, ?_⟩
  · intro operation m old hn hheld
    obtain ⟨hkey, hrow⟩ := matchers_of_changed hn hheld
    rcases h.inStep with hclosed | ⟨i, m', hactive, hplaced, hopen⟩
    · exact absurd (hclosed.held.symm.trans hheld) (by simp)
    · obtain rfl := Option.some.inj (hopen.symm.trans hheld)
      rw [show b.placeOf? m'.key = some i from RowChange.findIdx?_key hdistinct hplaced] at hrow
      exact ⟨hkey, i, hactive, hplaced, hrow⟩
  · intro operation hown m hm hnew
    have hadded : operation.added? ≠ some m := by
      cases operation <;> simp_all [Operation.added?, Operation.handsOver]
    have hupdate : operation ≠ .update m := by
      rintro rfl
      contradiction
    obtain ⟨e, heffect⟩ := exists_effect b operation
    have htake : ∀ row, e ≠ .take row := by
      rintro row rfl
      have hsync : operation = .sync row := heffect.sourced
      rw [hsync] at hown
      contradiction
    rw [heffect.row] at hm
    have hcame := (RowChange.mem_of_mem_apply htake hm).resolve_right hnew
    cases e with
    | join n =>
        obtain rfl := Option.some.inj hcame
        obtain ⟨-, hkey, hkeys, -⟩ := heffect.sourced.resolve_left hadded
        exact Or.inl ⟨hkey, hkeys⟩
    | put i n =>
        obtain rfl := Option.some.inj hcame
        obtain ⟨hkey, hkeys, -⟩ := heffect.sourced.resolve_left hadded
        exact Or.inl ⟨hkey, hkeys⟩
    | replace i n =>
        obtain rfl := Option.some.inj hcame
        obtain ⟨old, hactive, hplaced, hheld, hkey, -⟩ :=
          heffect.replaces hupdate hdistinct h.inStep
        exact Or.inr ⟨i, old, hactive, hplaced, hheld, hkey, heffect.row⟩
    | _ => contradiction

/-- A row of two colours to start from, where three colours are offered. -/
def paintbox : Bar :=
  (Bar.new
    (.ofSources
      [{ name := "colour", title := "Colours", comparisons := ["="]
         definitions := [.list { supply := .items [.text "red", .text "green", .text "blue"] }] }])
    0).withMatchers [colour "a" "red", colour "b" "green"]

theorem tended_paintbox : Tended paintbox := by
  refine .built (.equip (.new ..) (.matchers _)) ⟨by decide, ?_⟩
  intro m hm
  have hkeys : ∀ m ∈ paintbox.matchers, ¬ paintbox.keys.stem.toList <+: m.key.toList := by
    decide
  exact KeySupply.not_owes_of_stem (hkeys m hm)

/-- Blue is put in before red, and then green takes the place of red. -/
theorem keys_stay_unique_paintbox :
    let history : List Operation := [.select 0, .input "blue", .choose 0 true, .input "green"]
    let b := paintbox.run history
    let enter : Operation := .key { key := .enter }
    b.Tended ∧ b.matchers.map (·.text) = ["blue", "red", "green"] ∧
      (b.matchers.map (·.key)).Nodup ∧
      (b.perform enter).1.matchers = b.matchers.set 1 (colour "a" "green") := by
  intro history b enter
  have htended : b.Tended := tended_paintbox.run (by decide)
  obtain ⟨hdistinct, -, hcame⟩ := keys_stay_unique htended
  refine ⟨htended, by decide +kernel, hdistinct, ?_⟩
  rcases hcame enter rfl (colour "a" "green") (by decide +kernel) (by decide +kernel) with
    ⟨hkey, -⟩ | ⟨i, old, hactive, -, -, -, hrow⟩
  · exact absurd hkey (by decide +kernel)
  · have hplace : b.active = some 1 := by decide +kernel
    obtain rfl := Option.some.inj (hplace.symm.trans hactive)
    exact hrow

end QueryBar.Bar
