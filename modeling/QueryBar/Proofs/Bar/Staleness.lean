/-
Answers that come too late never land.

The invariant (`Sound`) is about tokens.  No request carries a higher token than the count
of the bar, and those that carry the count itself are the ones of the search that is shown.
A text that is typed raises the count and hands out requests that carry the new one; every
other operation either leaves the search and the count alone, or ends the search and raises
the count.  So an answer that passes the test of `takeAnswer` belongs to the search that is
shown, and any other is turned away.
-/
import QueryBar.Proofs.Bar.Watch

namespace QueryBar.Watch

variable {w : Watch} {b b' : Bar} {q : Inquiry} {a : LookupAnswer} {r : LookupRequest}

/-- What the box shows is what was seen of it, and only requests of the search that it shows carry
the count of the bar. -/
structure Sound (w : Watch) : Prop where
  token : ∀ r ∈ w.handedOut, r.token ≤ w.bar.generation.current
  current : ∀ r ∈ w.handedOut, r.token = w.bar.generation.current → r ∈ w.live
  shown : ∀ q, w.inquiry = some q →
    q.ShownBy w.landed w.bar.box ∧ q.context.config = w.bar.config ∧ w.given = q.findings.pending
  closed : w.inquiry = none → w.bar.box.matchText = none ∧ w.bar.box.buckets = []
  landed : ∀ a ∈ w.landed, ∃ r ∈ w.given, a.Answers r

/-- Requests whose answers count belong to the search that the box shows. -/
theorem Sound.of_mem_live (h : w.Sound) (hr : r ∈ w.live) :
    ∃ q, w.inquiry = some q ∧ r ∈ w.given ∧
      r.owner = w.bar.generation.owner ∧ r.token = w.bar.generation.current := by
  unfold live at hr
  split at hr
  · rename_i htext
    cases hq : w.inquiry with
    | none =>
        rw [(h.closed hq).1] at htext
        simp at htext
    | some q =>
        obtain ⟨hshown, -, hgiven⟩ := h.shown q hq
        have hgeneration : w.bar.generation = q.generation := hshown.generation
        have hpending : r ∈ q.findings.pending := hgiven ▸ hr
        rw [hgeneration]
        exact ⟨q, rfl, hr, SearchContext.generation_of_mem_pending hpending⟩
  · simp at hr

/-! ### The invariant is kept -/

theorem sound_start (config : Config) (owner : Nat) : (start config owner).Sound := by
  have hinquiry : (start config owner).inquiry = none := rfl
  refine ⟨by simp [start], by simp [start], ?_, fun _ => ⟨rfl, rfl⟩, by simp [start]⟩
  intro q hq
  rw [hinquiry] at hq
  simp at hq

/-- Where the search of the box is kept, so is everything that is known of it. -/
theorem Sound.keeps (h : w.Sound) (hconfig : b.config = w.bar.config)
    (hkeeps : w.bar.box.Keeps b.box) : Sound { w with bar := b } := by
  have hgeneration : b.generation = w.bar.generation := hkeeps.generation
  have hinquiry : inquiry { w with bar := b } = w.inquiry := by
    unfold inquiry
    rw [hkeeps.matchText]
  have hlive : live { w with bar := b } = w.live := by
    unfold live
    rw [hkeeps.matchText]
  refine ⟨?_, ?_, ?_, ?_, h.landed⟩
  · intro r hr
    show r.token ≤ b.generation.current
    rw [hgeneration]
    exact h.token r hr
  · intro r hr hnow
    rw [hlive]
    exact h.current r hr (hgeneration ▸ hnow)
  · intro q hq
    obtain ⟨hshown, hcontext, hgiven⟩ := h.shown q (hinquiry ▸ hq)
    exact ⟨hshown.keeps hkeeps, hcontext.trans hconfig.symm, hgiven⟩
  · intro hnone
    obtain ⟨htext, hbuckets⟩ := h.closed (hinquiry ▸ hnone)
    exact ⟨hkeeps.matchText.trans htext, hkeeps.buckets.trans hbuckets⟩

/-- Where the search of the box ends, no request that was handed out carries the count. -/
theorem Sound.closes (h : w.Sound) (hcloses : w.bar.box.Closes b.box) (asked : Option Inquiry)
    {given : List LookupRequest} {landed : List LookupAnswer}
    (hlanded : ∀ a ∈ landed, ∃ r ∈ given, a.Answers r) :
    Sound ⟨b, w.handedOut, asked, given, landed⟩ := by
  have hlater : w.bar.generation.current < b.generation.current := hcloses.later
  have hinquiry : inquiry ⟨b, w.handedOut, asked, given, landed⟩ = none := by
    unfold inquiry
    rw [hcloses.matchText]
    rfl
  refine ⟨?_, ?_, ?_, ?_, hlanded⟩
  · intro r hr
    have htoken := h.token r hr
    show r.token ≤ b.generation.current
    omega
  · intro r hr hnow
    have htoken := h.token r hr
    have hnow' : r.token = b.generation.current := hnow
    omega
  · intro q hq
    rw [hinquiry] at hq
    simp at hq
  · intro _
    exact ⟨hcloses.matchText, hcloses.buckets⟩

/-- What keeps the search of the box or ends it keeps the invariant. -/
theorem Sound.follows (h : w.Sound) (hfollows : w.bar.Follows b) : Sound { w with bar := b } := by
  rcases hfollows.box with hkeeps | hcloses
  · exact h.keeps hfollows.config hkeeps
  · exact h.closes hcloses w.asked h.landed

theorem Sound.typed (h : w.Sound) (text : String) : (w.typed text).Sound := by
  unfold Watch.typed
  cases hq : w.bar.inquiry? text with
  | none =>
      obtain ⟨hrequests, hcloses⟩ := Bar.input_of_no_inquiry hq
      rw [hrequests, List.append_nil]
      exact h.closes hcloses none (by simp)
  | some q =>
      obtain ⟨hrequests, hshown⟩ := Bar.input_of_inquiry hq
      obtain ⟨-, -, hfor⟩ := Bar.of_inquiry?_eq_some hq
      have hgeneration : (w.bar.input text).1.generation = q.generation := hshown.generation
      have hnext : q.generation = w.bar.generation.advance := by rw [hfor]
      have hconfig : q.context.config = (w.bar.input text).1.config := by
        rw [Bar.config_input, Bar.config_of_inquiry hq]
      have htext : (w.bar.input text).1.box.matchText.isSome = true := by
        rw [hshown.matchText]
        rfl
      rw [hrequests]
      refine ⟨?_, ?_, ?_, ?_, by simp⟩
      · intro r hr
        show r.token ≤ (w.bar.input text).1.generation.current
        rcases List.mem_append.mp hr with hold | hnew
        · rw [hgeneration, hnext]
          exact Nat.le_succ_of_le (h.token r hold)
        · rw [hgeneration]
          exact Nat.le_of_eq (SearchContext.generation_of_mem_pending hnew).2
      · intro r hr hnow
        have hnow' : r.token = (w.bar.input text).1.generation.current := hnow
        rcases List.mem_append.mp hr with hold | hnew
        · have htoken := h.token r hold
          rw [hgeneration, hnext] at hnow'
          have hadvance : w.bar.generation.advance.current = w.bar.generation.current + 1 := rfl
          omega
        · unfold live
          rw [if_pos htext]
          exact hnew
      · intro q' hq'
        unfold inquiry at hq'
        rw [if_pos htext] at hq'
        obtain rfl := Option.some.inj hq'
        exact ⟨hshown, hconfig, rfl⟩
      · intro hnone
        unfold inquiry at hnone
        rw [if_pos htext] at hnone
        simp at hnone

/-- An answer to a request that is known passes the test only if the request belongs to the search
that is shown. -/
theorem Sound.mem_live_of_current (h : w.Sound) (ha : a.Answers r) (hr : w.Knows r)
    (hnow : a.owner = w.bar.generation.owner ∧ a.token = w.bar.generation.current) :
    r ∈ w.live := by
  obtain ⟨howner, htoken, -, -⟩ := ha
  rcases hr with hmem | hother
  · exact h.current r hmem (htoken ▸ hnow.2)
  · exact absurd (howner ▸ hnow.1) hother

theorem Sound.delivered (h : w.Sound) (ha : a.Answers r) (hr : w.Knows r) :
    (w.delivered a).Sound := by
  unfold Watch.delivered
  by_cases hnow : a.owner = w.bar.generation.owner ∧ a.token = w.bar.generation.current
  · have hlive := h.mem_live_of_current ha hr hnow
    have hany : w.live.any (a.Answers ·) = true :=
      List.any_eq_true.mpr ⟨r, hlive, decide_eq_true ha⟩
    rw [if_pos hany]
    obtain ⟨q, hq, hgiven, -⟩ := h.of_mem_live hlive
    obtain ⟨hshown, hconfig, hpending⟩ := h.shown q hq
    have hgeneration : w.bar.generation = q.generation := hshown.generation
    have htaken := Bar.shownBy_takeAnswer hshown hconfig (hgeneration ▸ hnow)
    have hafter : (w.bar.takeAnswer a).1.generation = w.bar.generation :=
      htaken.generation.trans hgeneration.symm
    have htext : (w.bar.takeAnswer a).1.box.matchText = w.bar.box.matchText :=
      htaken.matchText.trans hshown.matchText.symm
    have hinquiry : inquiry { w with
        bar := (w.bar.takeAnswer a).1, landed := w.landed ++ [a] } = some q := by
      rw [← hq]
      unfold inquiry
      rw [htext]
    refine ⟨?_, ?_, ?_, ?_, ?_⟩
    · intro r' hr'
      show r'.token ≤ (w.bar.takeAnswer a).1.generation.current
      rw [hafter]
      exact h.token r' hr'
    · intro r' hr' hnow'
      have hcounts := h.current r' hr' (hafter ▸ hnow')
      unfold live at hcounts ⊢
      rw [htext]
      exact hcounts
    · intro q' hq'
      obtain rfl := Option.some.inj (hinquiry.symm.trans hq')
      exact ⟨htaken, hconfig, hpending⟩
    · intro hnone
      rw [hinquiry] at hnone
      simp at hnone
    · intro a' ha'
      rcases List.mem_append.mp ha' with hold | hnew
      · exact h.landed a' hold
      · rw [List.mem_singleton.mp hnew]
        exact ⟨r, hgiven, ha⟩
  · have hdead : ¬ w.live.any (a.Answers ·) = true := by
      intro hany
      obtain ⟨r', hr', hanswers⟩ := List.any_eq_true.mp hany
      obtain ⟨howner, htoken, -, -⟩ := of_decide_eq_true hanswers
      obtain ⟨-, -, -, howner', htoken'⟩ := h.of_mem_live hr'
      exact hnow ⟨howner.trans howner', htoken.trans htoken'⟩
    rw [if_neg hdead, Bar.takeAnswer_of_stale hnow]
    exact h

/-- **An operation types a text, delivers an answer, or keeps the search of the box or ends it.** -/
theorem step_cases (w : Watch) (operation : Operation) :
    (∃ text, w.step operation = w.typed text) ∨
      (∃ a, operation = .takeAnswer a ∧ w.step operation = w.delivered a) ∨
      ∃ b, w.step operation = { w with bar := b } ∧ w.bar.Follows b := by
  have hother : ∀ b, w.step operation = { w with bar := b } → w.bar.Follows b →
      (∃ text, w.step operation = w.typed text) ∨
        (∃ a, operation = .takeAnswer a ∧ w.step operation = w.delivered a) ∨
        ∃ b, w.step operation = { w with bar := b } ∧ w.bar.Follows b :=
    fun b hstep hfollows => Or.inr (Or.inr ⟨b, hstep, hfollows⟩)
  cases operation with
  | input text => exact Or.inl ⟨text, rfl⟩
  | compose operator comparison => exact Or.inl ⟨_, rfl⟩
  | takeAnswer a => exact Or.inr (Or.inl ⟨a, rfl, rfl⟩)
  | key press => exact hother _ rfl (Bar.follows_key ..)
  | choose slot insert => exact hother _ rfl (Bar.follows_choose ..)
  | highlight slot => exact hother _ rfl (Bar.follows_highlight ..)
  | focus => exact hother _ rfl (Bar.follows_focus _)
  | blur => exact hother _ rfl (Bar.follows_blur _)
  | add m => exact hother _ rfl (Bar.follows_add ..)
  | update m => exact hother _ rfl (Bar.follows_update ..)
  | delete key => exact hother _ rfl (Bar.follows_remove ..)
  | deleteLast => exact hother _ rfl (Bar.follows_deleteLast _)
  | deleteAll => exact hother _ rfl (Bar.follows_deleteAll _)
  | insertBefore m anchor =>
      refine hother _ rfl ?_
      unfold Bar.perform
      dsimp only
      split
      · rename_i hinsert
        exact Bar.follows_insertBefore hinsert
      · exact Bar.Follows.refl _
  | swap key other => exact hother _ rfl (Bar.follows_swap ..)
  | moveActive forward => exact hother _ rfl (Bar.follows_moveActive ..)
  | select place => exact hother _ rfl (Bar.follows_select ..)
  | selectPrevious => exact hother _ rfl (Bar.follows_openAt ..)
  | selectNext => exact hother _ rfl (Bar.follows_openAt ..)
  | editPrevious => exact hother _ rfl (Bar.follows_editPrevious _)
  | editNext => exact hother _ rfl (Bar.follows_editNext _)
  | toFirst => exact hother _ rfl (Bar.follows_toFirst _)
  | toEnd => exact hother _ rfl (Bar.follows_toEnd _)
  | sync matchers => exact hother _ rfl (Bar.follows_sync ..)
  | complete => exact hother _ rfl (Bar.follows_complete _)
  | drop target type data => exact hother _ rfl (Bar.follows_drop ..)

theorem Sound.step {operation : Operation} (h : w.Sound) (hadmits : w.Admits operation) :
    (w.step operation).Sound := by
  rcases w.step_cases operation with ⟨text, hstep⟩ | ⟨a, rfl, hstep⟩ | ⟨b, hstep, hfollows⟩
  · rw [hstep]
    exact h.typed text
  · obtain ⟨r, ha, hr⟩ := hadmits
    rw [hstep]
    exact h.delivered ha hr
  · rw [hstep]
    exact h.follows hfollows

theorem follows_equips (h : Equips b b') : b.Follows b' := by
  cases h with
  | matchers ms =>
      have hrow : b.Follows { b with matchers := ms } := Bar.follows_of_box rfl rfl
      exact hrow.trans (Bar.follows_flagged _)
  | keys keys => exact Bar.follows_of_box rfl rfl
  | validator check => exact Bar.follows_of_box rfl rfl

/-- **The invariant holds of every run.** -/
theorem sound_reachable (h : Reachable w) : w.Sound := by
  induction h with
  | start config owner => exact sound_start config owner
  | equip _ hequips ih => exact ih.follows (follows_equips hequips)
  | step _ _ hadmits ih => exact ih.step hadmits

/-! ### What lands and what does not -/

/-- The count of a bar only goes up, and it stays the bar's own. -/
theorem generation_step (w : Watch) (operation : Operation) :
    (w.step operation).bar.generation.owner = w.bar.generation.owner ∧
      w.bar.generation.current ≤ (w.step operation).bar.generation.current := by
  rcases w.step_cases operation with ⟨text, hstep⟩ | ⟨a, -, hstep⟩ | ⟨b, hstep, hfollows⟩
  · rw [hstep]
    show (w.bar.input text).1.generation.owner = _ ∧ _ ≤ (w.bar.input text).1.generation.current
    cases hq : w.bar.inquiry? text with
    | none =>
        have hfollows : w.bar.box.Follows (w.bar.input text).1.box :=
          Or.inr (Bar.input_of_no_inquiry hq).2
        exact ⟨hfollows.owner, hfollows.current_le⟩
    | some q =>
        have hgeneration : (w.bar.input text).1.generation = q.generation :=
          (Bar.input_of_inquiry hq).2.generation
        obtain ⟨-, -, rfl⟩ := Bar.of_inquiry?_eq_some hq
        rw [hgeneration]
        exact ⟨rfl, Nat.le_succ _⟩
  · rw [hstep]
    show (w.bar.takeAnswer a).1.generation.owner = _ ∧ _ ≤ (w.bar.takeAnswer a).1.generation.current
    rw [Bar.generation_takeAnswer]
    exact ⟨rfl, Nat.le_refl _⟩
  · rw [hstep]
    exact ⟨hfollows.box.owner, hfollows.box.current_le⟩

/-- A request whose answers do not count any more is never taken up again. -/
theorem Sound.not_mem_live_step {operation : Operation} (h : w.Sound) (hr : w.Knows r)
    (hdead : r ∉ w.live) (hadmits : w.Admits operation) : r ∉ (w.step operation).live := by
  intro hlive
  obtain ⟨-, -, -, howner, htoken⟩ := (h.step hadmits).of_mem_live hlive
  obtain ⟨hsame, hlater⟩ := w.generation_step operation
  rcases hr with hmem | hother
  · have hmost := h.token r hmem
    exact hdead (h.current r hmem (by omega))
  · exact hother (howner.trans hsame)

/-- Once the search of the box has ended no answers count. -/
theorem live_of_ends {e : EditBox} (h : w.bar.box.Ends e) :
    live { w with bar := { w.bar with box := e } } = [] := by
  have htext : e.matchText = none := h.closes.matchText
  unfold live
  dsimp only
  rw [htext]
  rfl

/-- **Stale answers never land.**  At any time the box shows what the search that was called for
last found, with answers to the requests that were given back for it put in, or nothing.  An
answer to any other request is turned away and changes nothing; such a request does not come to
count again, and all requests are of that kind once the box has been reset, restored or
replaced. -/
theorem stale_answers_never_land (h : Reachable w) :
    w.bar.box.buckets = w.buckets ∧
      (∀ q, w.inquiry = some q → w.bar.box.matchText = some q.search ∧
        w.bar.box.operator = q.operator ∧ w.given = q.findings.pending) ∧
      (∀ a ∈ w.landed, ∃ r ∈ w.given, a.Answers r) ∧
      (∀ a r, a.Answers r → w.Knows r → r ∉ w.live → w.bar.takeAnswer a = (w.bar, false)) ∧
      (∀ r, w.Knows r → r ∉ w.live →
        ∀ operation, w.Admits operation → r ∉ (w.step operation).live) ∧
      ∀ e, w.bar.box.Ends e → live { w with bar := { w.bar with box := e } } = [] := by
  have hsound := sound_reachable h
  refine ⟨?_, ?_, hsound.landed, ?_, ?_, fun e he => live_of_ends he⟩
  · unfold buckets
    cases hq : w.inquiry with
    | some q => exact (hsound.shown q hq).1.buckets
    | none => exact (hsound.closed hq).2
  · intro q hq
    obtain ⟨hshown, -, hgiven⟩ := hsound.shown q hq
    exact ⟨hshown.matchText, hshown.operator, hgiven⟩
  · intro a r ha hr hdead
    refine Bar.takeAnswer_of_stale ?_
    intro hnow
    exact hdead (hsound.mem_live_of_current ha hr hnow)
  · intro r hr hdead operation hadmits
    exact hsound.not_mem_live_step hr hdead hadmits

/-- A service that completes what was typed. -/
def shadeService : Service := ⟨fun q => [.text (q.text ++ "dish")], fun _ => 0⟩

/-- The request for a text that is the first, second, … one typed into a bar of shades. -/
def shadeRequest (count : Nat) (text : String) : LookupRequest where
  owner := 0
  token := count
  source := "shade"
  definition := 0
  query := ⟨text, none, []⟩
  delay := 1
  service := shadeService

/-- A bar of shades into which two texts have been typed, one after the other. -/
def retyped : Watch :=
  ((start
    (Config.ofSources
      [{ name := "shade", title := "Shades", comparisons := ["="]
         definitions := [.list { supply := .service shadeService }] }])
    0).step (.input "re")).step (.input "red")

theorem reachable_retyped : Reachable retyped :=
  ((Reachable.start _ 0).step (.input "re") trivial).step (.input "red") trivial

theorem stale_answers_never_land_retyped :
    Reachable retyped ∧ (shadeRequest 1 "re").answered.Answers (shadeRequest 1 "re") ∧
      retyped.handedOut = [shadeRequest 1 "re", shadeRequest 2 "red"] ∧
      shadeRequest 1 "re" ∉ retyped.live ∧
      retyped.bar.takeAnswer (shadeRequest 1 "re").answered = (retyped.bar, false) := by
  have hanswers : (shadeRequest 1 "re").answered.Answers (shadeRequest 1 "re") :=
    ⟨rfl, rfl, rfl, rfl⟩
  have hhanded : retyped.handedOut = [shadeRequest 1 "re", shadeRequest 2 "red"] := rfl
  have hknown : retyped.Knows (shadeRequest 1 "re") := Or.inl (by rw [hhanded]; simp)
  have hdead : shadeRequest 1 "re" ∉ retyped.live := by
    intro hlive
    obtain ⟨-, -, -, -, htoken⟩ := (sound_reachable reachable_retyped).of_mem_live hlive
    have hcount : retyped.bar.generation.current = 2 := rfl
    rw [hcount] at htoken
    exact absurd htoken (by decide)
  obtain ⟨-, -, -, hstale, -, -⟩ := stale_answers_never_land reachable_retyped
  exact ⟨reachable_retyped, hanswers, hhanded, hdead, hstale _ _ hanswers hknown hdead⟩

end QueryBar.Watch
