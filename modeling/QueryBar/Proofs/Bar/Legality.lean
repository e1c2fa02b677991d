/-
What is built in the box stays legal.

A matcher that the box wishes into the row is judged when it is committed, in the row as it is
then.  Where each matcher counts for itself, the row that results from it has nothing that the
judged one has not: one that replaces the open matcher is judged at the place where it is then
put, because the open matcher is the one at the active place, and of one that is put in before
it only the number matters.  Nothing else that can be done to a bar puts a matcher into its row,
unless its owner hands one over.
-/
import QueryBar.Proofs.Bar.Selection
import QueryBar.Proofs.Row.Legal

namespace QueryBar

/-- The owner hands the bar a matcher or a row. -/
def Operation.handsOver : Operation → Bool
  | .add _ | .update _ | .insertBefore _ _ | .sync _ => true
  | _ => false

namespace Bar

variable {b b' : Bar} {operation : Operation} {e : RowChange} {m : Matcher} {inserting : Bool}

/-- A bar that started empty and whose owner has handed it nothing.  Others may draw keys from the
same supply at any time. -/
inductive Homegrown : Bar → Prop
  | built {b : Bar} (h : Built b) (hempty : b.matchers = []) : Homegrown b
  | drawn {b : Bar} (h : Homegrown b) : Homegrown (b.withKeys b.keys.advance)
  | step {b : Bar} (h : Homegrown b) (operation : Operation)
      (hown : operation.handsOver = false) : Homegrown (b.perform operation).1

theorem welcomes_of_own (h : operation.handsOver = false) : b.Welcomes operation where
  added m hm := by cases operation <;> simp_all [Operation.added?, Operation.handsOver]
  stays row := by
    rintro rfl
    contradiction

theorem Homegrown.tended (h : Homegrown b) : Tended b := by
  induction h with
  | built hbuilt hempty =>
      refine .built hbuilt ⟨by rw [hempty]; exact List.nodup_nil, ?_⟩
      intro m hm
      rw [hempty] at hm
      contradiction
  | drawn _ ih => exact .drawn ih
  | step _ operation hown ih => exact .step ih operation (welcomes_of_own hown)

theorem Homegrown.run {history : List Operation} (h : Homegrown b)
    (hown : ∀ operation ∈ history, operation.handsOver = false) : Homegrown (b.run history) := by
  induction history generalizing b with
  | nil => exact h
  | cons operation rest ih =>
      have hfirst := h.step operation (hown operation List.mem_cons_self)
      exact ih hfirst fun later hlater => hown later (List.mem_cons_of_mem _ hlater)

/-- The place that the owner takes a candidate of the open box to replace. -/
def replacedBy (b : Bar) (inserting : Bool) : Option Nat := if inserting then none else b.active

theorem replacedBy_of_closed (h : b.Closed) : b.replacedBy inserting = none := by
  unfold replacedBy
  rw [h.active, ite_self]

/-- A candidate that replaces the open matcher is judged in the row that has it in its place. -/
theorem resulting_of_active {i : Nat} (hactive : b.active = some i) (hi : i < b.matchers.length) :
    Row.resulting m b.matchers (b.replacedBy false) = b.matchers.set i m := by
  unfold replacedBy
  rw [if_neg Bool.false_ne_true, hactive]
  exact if_pos hi

/-- A choice whose comparison is not objected to has one that its source allows. -/
theorem allows_of_choice {c : Config} {o : Suggestion} {s : Source}
    (h : (Choice.suggestion o).objection? c m = none) (hs : c.source? o.source = some s) :
    s.allows m.comparison = true := by
  unfold Choice.objection? at h
  dsimp only at h
  rw [hs] at h
  dsimp only at h
  split at h
  · assumption
  · contradiction

/-- Against a matcher that is cleared its source says nothing. -/
theorem sourceObjection?_of_clears (hunmixed : b.config.Unmixed)
    (h : b.surroundings.Clears m inserting) {s : Source} (hs : b.config.source? m.source = some s) :
    Row.sourceObjection? b.config s m b.matchers (b.replacedBy inserting) = none := by
  cases h with
  | bracket key bracket operator hm =>
      subst hm
      exact absurd (hunmixed.source?_bracket.symm.trans hs) (by simp)
  | freeText key text hm =>
      subst hm
      exact absurd (hunmixed.source?_freeText.symm.trans hs) (by simp)
  | suggestion o hcomparison hsource howner =>
      have hallows : s.allows m.comparison = true :=
        allows_of_choice hcomparison (hsource ▸ hs)
      have hrow : Row.objection? b.config m b.matchers (b.replacedBy inserting) = none :=
        (Option.or_eq_none_iff.mp howner).1
      rw [← Row.objection?_of_source hunmixed hs hallows]
      exact hrow

/-- What the box puts into the row was judged in a row that has at least as much. -/
theorem Effect.judged (h : Effect b operation b' e) (hown : operation.handsOver = false)
    (hdistinct : (b.matchers.map (·.key)).Nodup) (hstep : b.InStep) (hm : e.incoming? = some m) :
    ∃ inserting, b.surroundings.Clears m inserting ∧
      List.Subperm (e.apply b.matchers)
        (Row.resulting m b.matchers (b.replacedBy inserting)) := by
  have hadded : operation.added? ≠ some m := by
    cases operation <;> simp_all [Operation.added?, Operation.handsOver]
  have hsourced := h.sourced
  cases e with
  | join n =>
      obtain rfl := Option.some.inj hm
      obtain ⟨hnone, -, -, inserting, hclears⟩ := hsourced.resolve_left hadded
      refine ⟨inserting, hclears, ?_⟩
      have hclosed : b.Closed := by
        rcases hstep with hclosed | ⟨i, m, -, -, hheld⟩
        · exact hclosed
        · exact absurd (hnone.symm.trans hheld) (by simp)
      rw [replacedBy_of_closed hclosed]
      exact List.Subperm.refl _
  | put i n =>
      obtain rfl := Option.some.inj hm
      obtain ⟨-, -, hclears⟩ := hsourced.resolve_left hadded
      refine ⟨true, hclears, ?_⟩
      have hsub := RowChange.subperm_apply b.matchers (e := .put i n) (by simp)
      exact hsub.trans (List.perm_append_singleton n b.matchers).symm.subperm
  | replace i n =>
      obtain rfl := Option.some.inj hm
      have hupdate : operation ≠ .update n := by
        rintro rfl
        contradiction
      obtain ⟨old, hactive, hplaced, -, -, hclears⟩ := h.replaces hupdate hdistinct hstep
      refine ⟨false, hclears, ?_⟩
      rw [resulting_of_active hactive (List.getElem?_eq_some_iff.mp hplaced).1]
      exact List.Subperm.refl _
  | _ => contradiction

/-- Nothing that is done in the box makes the row illegal. -/
theorem Effect.legal (h : Effect b operation b' e) (hown : operation.handsOver = false)
    (hunmixed : b.config.Unmixed) (hpolicy : b.config.limitPolicy = .individual)
    (hdistinct : (b.matchers.map (·.key)).Nodup) (hstep : b.InStep)
    (hlegal : Row.Legal b.config b.matchers) : Row.Legal b'.config b'.matchers := by
  have htake : ∀ row, e ≠ .take row := by
    rintro row rfl
    have hsync : operation = .sync row := h.sourced
    rw [hsync] at hown
    contradiction
  have hsub := RowChange.subperm_apply b.matchers htake
  rw [h.config, h.row]
  cases hm : e.incoming? with
  | none =>
      rw [hm] at hsub
      exact hlegal.of_subperm hsub
  | some m =>
      rw [hm] at hsub
      obtain ⟨inserting, hclears, hresult⟩ := h.judged hown hdistinct hstep hm
      exact hlegal.of_judged hpolicy hsub
        (fun s hs => sourceObjection?_of_clears hunmixed hclears hs) hresult

theorem Homegrown.legal (h : Homegrown b) (hunmixed : b.config.Unmixed)
    (hpolicy : b.config.limitPolicy = .individual) : Row.Legal b.config b.matchers := by
  induction h with
  | built _ hempty => exact hempty ▸ Row.legal_nil _
  | drawn _ ih => exact ih hunmixed hpolicy
  | step h operation hown ih =>
      obtain ⟨e, heffect⟩ := exists_effect _ operation
      rw [heffect.config] at hunmixed hpolicy
      exact heffect.legal hown hunmixed hpolicy h.tended.keysApart.distinct h.tended.inStep
        (ih hunmixed hpolicy)

/-- **What is built in the box stays legal.**  Every comparison fits its source, no source is
selected too often, and no matcher would be objected to in its place. -/
theorem homegrown_stays_legal (h : Homegrown b) (hunmixed : b.config.Unmixed)
    (hpolicy : b.config.limitPolicy = .individual) :
    Row.Legal b.config b.matchers ∧
      ∀ i m, b.matchers[i]? = some m → Row.objection? b.config m b.matchers (some i) = none := by
  have hlegal := h.legal hunmixed hpolicy
  exact ⟨hlegal, fun i m hm => hlegal.objection?_eq_none hpolicy hm⟩

/-- A bar whose colours may be selected twice. -/
def twoAtMost : Bar :=
  Bar.new
    (.ofSources
      [{ name := "colour", title := "Colours", comparisons := ["=", "!"], selectionLimit := some 2
         definitions := [.list { supply := .items [.text "red", .text "green", .text "blue"] }] }])
    0

theorem unmixed_twoAtMost : twoAtMost.config.Unmixed where
  names := by decide
  comparisons := by decide

/-- The third colour is refused, but may take the place of the first one. -/
theorem homegrown_stays_legal_twoAtMost :
    let enter : Operation := .key { key := .enter }
    let history : List Operation :=
      [.input "red", enter, .input "(", .input "green", enter, .input "blue", enter, .select 0,
        .input "!blue", enter]
    let b := twoAtMost.run history
    b.Homegrown ∧ b.config.Unmixed ∧ b.config.limitPolicy = .individual ∧
      (twoAtMost.run (history.take 7)).box.error = some (Row.limitExceeded "Colours" 2) ∧
      b.matchers.map (·.text) = ["blue", "", "green"] ∧ Row.Legal b.config b.matchers ∧
      ∀ i m, b.matchers[i]? = some m →
        Row.objection? b.config m b.matchers (some i) = none := by
  intro enter history b
  have hstart : twoAtMost.Homegrown := .built (.new ..) rfl
  have hgrown : b.Homegrown := hstart.run (by decide)
  have hconfig : b.config = twoAtMost.config := config_run twoAtMost history
  have hunmixed : b.config.Unmixed := by rw [hconfig]; exact unmixed_twoAtMost
  have hpolicy : b.config.limitPolicy = .individual := by rw [hconfig]; rfl
  exact ⟨hgrown, hunmixed, hpolicy, by decide +kernel, by decide +kernel,
    homegrown_stays_legal hgrown hunmixed hpolicy⟩

end Bar

end QueryBar
