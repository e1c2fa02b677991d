/-
Enter while lookups are under way.

The bar hands its row out only on an enter that the open box leaves to it, and a box with a text
leaves enter to the bar only where nothing is offered and no matcher is edited.  A text that is
searched for is never marked as free text, so that this is all there is to it as long as a
request for the text is outstanding (`enter_while_outstanding`).

Whether anything is offered while the first answers are still to come depends on the
configuration.  If lookups are waited for in view, the category of an outstanding request keeps
a place of its own, and enter on that place is taken in without effect.  The place only goes when an
empty answer comes for the category and it shows nothing at that moment (`Watch.GaveUp`).
Otherwise no place is kept at all.
-/
import QueryBar.Proofs.Bar.Eligibility
import QueryBar.Proofs.Bar.OpenBox
import QueryBar.Proofs.EditBox.Highlight
import QueryBar.Proofs.Search.Places

namespace QueryBar

/-! ### The open box -/

namespace EditBox

variable {e e' : EditBox} {around : Surroundings} {keys : KeySupply} {asked : Bool}
  {turn : Turn Reaction}

/-- What is searched for is not marked as free text. -/
def Unmarked (e : EditBox) : Prop := e.matchText.isSome = true → e.isQuoted = false

theorem unmarked_of_unsearched (h : e.matchText = none) : e.Unmarked := by
  intro hsome
  rw [h] at hsome
  contradiction

theorem Resembles.unmarked (h : e.Resembles e') (hunmarked : e.Unmarked) : e'.Unmarked := by
  unfold Unmarked isQuoted
  rw [h.matchText, h.text]
  exact hunmarked

theorem Course.unmarked (h : Course e around keys asked turn) (hunmarked : e.Unmarked) :
    turn.box.Unmarked := by
  cases h with
  | bracketed hbox _ _ =>
      exact unmarked_of_unsearched (hbox.matchText.trans (matchText_reopen _))
  | quiet hbox | turned hbox _ _ | refused hbox | objected hbox | inserted hbox _ _ _ =>
      exact hbox.unmarked hunmarked
  | emptied hbox | cleared hbox | function hbox _ _ _ | committed hbox _ _ _ | captured hbox _ =>
      exact unmarked_of_unsearched hbox.matchText

/-- A text with the mark is free text, which is not searched for. -/
theorem unmarked_typeText (e : EditBox) (around : Surroundings) (keys : KeySupply)
    (text : String) : (e.typeText around keys text).box.Unmarked := by
  cases hq : e.inquiry? around text with
  | none => exact unmarked_of_unsearched (typeText_of_no_inquiry keys hq).2.matchText
  | some q =>
      obtain ⟨hplain, hbracket, -⟩ := of_inquiry?_eq_some hq
      intro _
      unfold isQuoted
      rw [(e.typeText_of_no_bracket around keys hbracket).1.text, Bool.eq_false_iff]
      intro hmark
      rw [Tokens.freeText_of_mark hmark] at hplain
      contradiction

theorem invariant_unmarked : Invariant Unmarked where
  trailing _ _ _ _ := unmarked_of_unsearched rfl
  editing _ _ _ _ _ := unmarked_of_unsearched rfl
  place _ _ _ _ h := h
  reset _ _ := unmarked_of_unsearched rfl
  typeText e around keys text _ := e.unmarked_typeText around keys text
  select e around keys slot insert h := (e.course_select around keys slot insert).unmarked h
  key e around keys p h := (e.course_key around keys p).unmarked h
  highlight e slot h := (e.resembles_highlight slot).unmarked h
  takeAnswer e c a h := by
    obtain ⟨bs, hbox, -⟩ := e.takeAnswer_eq c a
    exact hbox.unmarked h

/-- **The highlight is on a slot**, whatever is done to a bar. -/
theorem invariant_pointed : Invariant Pointed where
  trailing _ _ _ _ := pointed_of_no_buckets rfl
  editing _ _ _ _ _ := pointed_of_no_buckets rfl
  place _ _ _ _ h := h.congr rfl rfl rfl
  reset _ _ := pointed_of_no_buckets rfl
  typeText e around keys text _ := e.pointed_typeText around keys text
  select _ _ _ slot insert h := h.select slot insert
  key _ _ _ p h := h.key p
  highlight _ slot h := h.highlight slot
  takeAnswer _ c a h := h.takeAnswer c a

end EditBox

/-- The key was taken for the wish to have the row handed out, whether or not that was refused. -/
def KeyResponse.concludes : KeyResponse → Bool
  | .completed _ | .incomplete _ => true
  | _ => false

namespace Bar

variable {b : Bar} {p : KeyPress}

/-- **Only an enter that the box leaves to the bar concludes the row.** -/
theorem concludes_enter_iff (b : Bar) (hkey : p.key = .enter) :
    (b.key p).2.concludes = true ↔ (b.box.key b.surroundings b.keys p).answer = .ignored := by
  have hcommand : ∀ b : Bar, (b.command p).2.concludes = true := by
    intro b
    unfold command
    rw [hkey]
    dsimp only
    split <;> rfl
  by_cases hignored : (b.box.key b.surroundings b.keys p).answer = .ignored
  · rw [key_of_ignored hignored]
    exact iff_of_true (hcommand _) hignored
  · rw [key_of_used hignored]
    exact iff_of_false (by simp [KeyResponse.concludes]) hignored

end Bar

namespace Watch

variable {w : Watch} {r : LookupRequest} {p : KeyPress}

/-- A request has been handed out, it is still current, and it has not been answered. -/
structure Outstanding (w : Watch) (r : LookupRequest) : Prop where
  handedOut : r ∈ w.handedOut
  current : r.isStale w.bar.generation = false
  unanswered : ∀ a ∈ w.landed, ¬ a.Answers r

/-- An empty answer has come for a category that showed nothing, so that its place was not kept any
longer. -/
def GaveUp (w : Watch) (title : String) : Prop :=
  ∃ q, w.inquiry = some q ∧ q.findings.buckets.GivesUp w.bar.config title w.landed

/-- A request that is current belongs to the search that the box shows. -/
theorem Outstanding.mem_live (h : w.Outstanding r) (hsound : w.Sound) : r ∈ w.live := by
  have hcurrent := h.current
  unfold LookupRequest.isStale at hcurrent
  exact hsound.current r h.handedOut (by simpa using Eq.symm (bne_eq_false_iff_eq.mp hcurrent))

/-- **An enter concludes the row only where nothing is offered and no matcher is edited**, as long
as a request for the text is outstanding. -/
theorem Outstanding.concludes_enter_iff (hr : w.Outstanding r) (h : Reachable w)
    (htext : w.bar.box.text.isEmpty = false) (hkey : p.key = .enter) :
    (w.bar.key p).2.concludes = true ↔ w.bar.box.matcher = none ∧ w.bar.box.buckets = [] := by
  have hlive := hr.mem_live (sound_reachable h)
  have hsearched : w.bar.box.matchText.isSome = true := by
    unfold live at hlive
    split at hlive
    · assumption
    · contradiction
  have hunmarked := EditBox.invariant_unmarked.reachable h.bar hsearched
  have hpointed := EditBox.invariant_pointed.reachable h.bar
  rw [Bar.concludes_enter_iff _ hkey]
  exact hpointed.answer_enter_eq_ignored_iff htext hunmarked hkey

/-- **Where lookups are waited for in view, the category of an outstanding request has a place**, as
long as that has not been given up. -/
theorem Outstanding.exists_place (hr : w.Outstanding r) (h : Reachable w)
    (hwaits : w.bar.config.showWhenSearching = true) :
    ∃ s ∈ w.bar.config.sources, s.name = r.source ∧
      (¬ w.GaveUp s.title → w.bar.box.buckets.HasPlace s.title) := by
  have hsound := sound_reachable h
  obtain ⟨q, hq, hgiven, -⟩ := hsound.of_mem_live (hr.mem_live hsound)
  obtain ⟨hshown, hconfig, hpending⟩ := hsound.shown q hq
  rw [hpending] at hgiven
  rw [← hconfig] at hwaits ⊢
  obtain ⟨s, hs, hname, hplace⟩ := SearchContext.exists_place_find hwaits hgiven
  refine ⟨s, hs, hname, fun hkept => ?_⟩
  rw [hshown.buckets]
  refine hplace.withAnswers fun hgone => hkept ⟨q, hq, ?_⟩
  rw [← hconfig]
  exact hgone

/-- **Enter never concludes the row while a lookup is seen to be under way.**  As long as a request
for the text is outstanding, it does not if a matcher is edited or any category is shown; and if
lookups are waited for in view, the category of that request is shown, unless it has been given
up.  Otherwise a lookup alone is nothing to stop on, and a trailing box that shows nothing leaves
enter to the bar. -/
theorem enter_while_outstanding (h : Reachable w) (htext : w.bar.box.text.isEmpty = false)
    (hr : w.Outstanding r) (hkey : p.key = .enter) :
    (w.bar.box.matcher.isSome = true ∨ w.bar.box.buckets ≠ [] →
      (w.bar.key p).2.concludes = false) ∧
    (w.bar.config.showWhenSearching = true →
      ∃ s ∈ w.bar.config.sources, s.name = r.source ∧
        (¬ w.GaveUp s.title →
          w.bar.box.buckets.HasPlace s.title ∧ (w.bar.key p).2.concludes = false)) ∧
    (w.bar.config.showWhenSearching = false → w.bar.box.matcher = none →
      w.bar.box.buckets = [] → (w.bar.key p).2.concludes = true) := by
  have hiff := hr.concludes_enter_iff h htext hkey
  have hshown : w.bar.box.matcher.isSome = true ∨ w.bar.box.buckets ≠ [] →
      (w.bar.key p).2.concludes = false := by
    rintro hany
    rw [Bool.eq_false_iff, ne_eq, hiff]
    rintro ⟨hnone, hempty⟩
    rw [hnone] at hany
    exact hany.elim (by simp) fun hsome => hsome hempty
  refine ⟨hshown, fun hwaits => ?_, fun _ hnone hempty => hiff.mpr ⟨hnone, hempty⟩⟩
  obtain ⟨s, hs, hname, hplace⟩ := hr.exists_place h hwaits
  refine ⟨s, hs, hname, fun hkept => ⟨hplace hkept, hshown (Or.inr ?_)⟩⟩
  intro hempty
  have hthere := hplace hkept
  rw [hempty] at hthere
  contradiction

/-- A bar of shades and tints, in whose view lookups are waited for. -/
def shadesAndTints : Config :=
  { Config.ofSources
      [{ name := "shade", title := "Shades", comparisons := ["="]
         definitions := [.list { supply := .service shadeService }] },
       { name := "tint", title := "Tints", comparisons := ["="]
         definitions := [.list { supply := .service shadeService }] }] with
    showWhenSearching := true }

/-- The answer that there is no tint for the first text that is typed. -/
def noTint : LookupAnswer := ⟨0, 1, "tint", 0, []⟩

/-- A text has been typed, and there is no tint for it. -/
def tintless : Watch := ((start shadesAndTints 0).step (.input "re")).step (.takeAnswer noTint)

theorem enter_while_outstanding_tintless :
    Reachable tintless ∧ tintless.bar.box.text.isEmpty = false ∧
      tintless.Outstanding (shadeRequest 1 "re") ∧
      (tintless.bar.key { key := .enter }).2.concludes = false := by
  have htyped : Reachable ((start shadesAndTints 0).step (.input "re")) :=
    (Reachable.start _ 0).step (.input "re") trivial
  have hreachable : Reachable tintless := by
    refine htyped.step (.takeAnswer noTint) ?_
    exact ⟨{ shadeRequest 1 "re" with source := "tint" }, ⟨rfl, rfl, rfl, rfl⟩,
      Or.inl (List.mem_cons_of_mem _ List.mem_cons_self)⟩
  have htext : tintless.bar.box.text.isEmpty = false := rfl
  have hr : tintless.Outstanding (shadeRequest 1 "re") := by
    refine ⟨List.mem_cons_self, rfl, ?_⟩
    intro a ha
    obtain rfl : a = noTint := List.mem_singleton.mp ha
    decide
  refine ⟨hreachable, htext, hr, ?_⟩
  have hkey : ({ key := .enter } : KeyPress).key = .enter := rfl
  obtain ⟨s, hs, hname, hkept⟩ := (enter_while_outstanding hreachable htext hr hkey).2.1 rfl
  refine (hkept ?_).2
  rintro ⟨q, -, before, a, after, hlanded, ⟨-, t, ht, htitle⟩, -⟩
  -- The one answer is about the tints, which have a title of their own.
  have ha : a ∈ tintless.landed := by simp [hlanded]
  obtain rfl : a = noTint := List.mem_singleton.mp ha
  obtain ⟨hmem, htname⟩ := Config.of_source? ht
  have hapart : ∀ s ∈ shadesAndTints.sources, ∀ t ∈ shadesAndTints.sources,
      t.title = s.title → t.name = s.name := by decide
  have hsame : "tint" = "shade" := htname.symm.trans ((hapart s hs t hmem htitle).trans hname)
  exact absurd hsame (by decide)

/-- **Where lookups are not waited for in view, enter concludes the row while one is under way.** -/
theorem enter_concludes_out_of_view :
    let w := (start { shadesAndTints with showWhenSearching := false } 0).step (.input "re")
    Reachable w ∧ w.bar.box.text.isEmpty = false ∧ w.Outstanding (shadeRequest 1 "re") ∧
      (w.bar.key { key := .enter }).2.concludes = true := by
  refine ⟨(Reachable.start _ 0).step (.input "re") trivial, rfl, ?_, rfl⟩
  exact ⟨List.mem_cons_self, rfl, by simp [step, typed]⟩

end Watch

end QueryBar
