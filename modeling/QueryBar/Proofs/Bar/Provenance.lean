/-
No value in the row is made up.

What comes into the row of a bar that nobody hands anything to is wished into it by the open box,
and the box wishes for nothing but brackets, free text and what it offers (`EditBox.Wishes`).  All
that is offered comes of the search that is open, with answers put in.  So each value in the row
goes back to an item that accepted a text, to an item that a service answered, or to a text that
passed a test (`Source.Makes`), and the text was searched for, or the answer delivered, at some
point of the history.

The invariant (`Traced`) is about the row, the text that was searched for last and the answers that
have landed.  It need not mention the buckets, as these are settled by what they were found for.
-/
import QueryBar.Proofs.Bar.Eligibility
import QueryBar.Proofs.Bar.FunctionNames
import QueryBar.Proofs.Bar.Legality
import QueryBar.Proofs.EditBox.Wishes
import QueryBar.Proofs.Search.Provenance

namespace QueryBar

/-- Where a matcher is from: it is a bracket, which stands for nothing, or free text, or it stands
for something that a source has made. -/
def Matcher.HasOrigin (m : Matcher) (c : Config) (searched : String → Prop)
    (answered : String → Nat → Item → Prop) : Prop :=
  (m.isBracket = true ∧ m.source = "" ∧ m.value = .blank ∧ m.text = "") ∨
    (m.isFreeText = true ∧ m.source = freeTextSource ∧ m.value = .text m.text) ∨
    ∃ s ∈ c.sources, m.source = s.name ∧ s.Makes searched (answered s.name) m.value m.text

theorem Matcher.HasOrigin.mono {m : Matcher} {c : Config} {searched searched' : String → Prop}
    {answered answered' : String → Nat → Item → Prop} (h : m.HasOrigin c searched answered)
    (hsearched : ∀ t, searched t → searched' t)
    (hanswered : ∀ source index item, answered source index item → answered' source index item) :
    m.HasOrigin c searched' answered' := by
  refine h.imp_right (Or.imp_right ?_)
  rintro ⟨s, hs, hname, hmakes⟩
  exact ⟨s, hs, hname, hmakes.mono hsearched (hanswered s.name)⟩

namespace Bar

variable {b : Bar} {operation : Operation} {m : Matcher} {n : Notice}

/-! ### What comes into the row -/

/-- Unless the bar is handed something, nothing comes into its row but what the box wishes for. -/
theorem mem_perform_of_own (hown : operation.handsOver = false)
    (hm : m ∈ (b.perform operation).1.matchers) :
    m ∈ b.matchers ∨ ∃ n ∈ b.notices operation, n.incoming? = some m := by
  have hplain : b.Rearranges (b.perform operation).1 →
      m ∈ b.matchers ∨ ∃ n ∈ b.notices operation, n.incoming? = some m :=
    fun h => Or.inl (h.mem hm)
  cases operation with
  | input text | compose operator comparison | key press | choose slot insert | highlight slot
  | takeAnswer a => exact mem_perform rfl hm
  | focus => exact mem_takeTurn hm
  | blur => exact hplain (rearranges_blur b)
  | add m => contradiction
  | update m => contradiction
  | delete key => exact hplain (rearranges_delete b key)
  | deleteLast => exact hplain (rearranges_deleteLast b)
  | deleteAll => exact hplain (rearranges_deleteAll b)
  | insertBefore m anchor => contradiction
  | swap key other => exact hplain (rearranges_swap b key other)
  | moveActive forward => exact hplain (rearranges_moveActive b forward)
  | select place => exact hplain (rearranges_select b place)
  | selectPrevious => exact hplain (rearranges_openAt ..)
  | selectNext => exact hplain (rearranges_openAt ..)
  | editPrevious => exact hplain (rearranges_editPrevious b)
  | editNext => exact hplain (rearranges_editNext b)
  | toFirst => exact hplain (rearranges_toFirst b)
  | toEnd => exact hplain (rearranges_toEnd b)
  | sync row => contradiction
  | complete => exact hplain (rearranges_complete b)
  | drop target type data => exact hplain (rearranges_drop b target type data)

theorem wishes_of_mem_notices (hn : n ∈ b.notices operation) (hm : n.incoming? = some m) :
    b.box.Wishes m := by
  cases operation with
  | input text => exact EditBox.wishes_typeText hn hm
  | compose operator comparison => exact EditBox.wishes_typeText hn hm
  | key press => exact EditBox.wishes_key hn hm
  | choose slot insert => exact EditBox.wishes_select hn hm
  | focus =>
      rw [List.mem_singleton.mp hn] at hm
      contradiction
  | _ => contradiction

/-- The search that an operation calls for: typing and picking call for one. -/
def called? (b : Bar) : Operation → Option Inquiry
  | .input text => b.inquiry? text
  | .compose operator comparison => b.inquiry? (b.box.composedText operator comparison)
  | _ => none

end Bar

namespace Watch

variable {w : Watch} {b : Bar} {operation : Operation} {history : List Operation}
  {searched : String → Prop} {answered : String → Nat → Item → Prop} {m : Matcher}
  {o : Suggestion}

/-! ### Histories -/

/-- What is seen of a bar in the course of a history. -/
def after (w : Watch) (history : List Operation) : Watch := history.foldl step w

theorem bar_after (w : Watch) (history : List Operation) :
    (w.after history).bar = w.bar.run history := by
  induction history generalizing w with
  | nil => rfl
  | cons operation rest ih =>
      have hrest := ih (w.step operation)
      rw [bar_step] at hrest
      exact hrest

theorem after_concat (w : Watch) (history : List Operation) (operation : Operation) :
    w.after (history ++ [operation]) = (w.after history).step operation := by
  unfold after
  rw [List.foldl_append]
  rfl

theorem atEach_append {P : Watch → Operation → Prop} (w : Watch)
    (history more : List Operation) :
    w.AtEach P (history ++ more) ↔ w.AtEach P history ∧ (w.after history).AtEach P more := by
  induction history generalizing w with
  | nil => exact ⟨fun h => ⟨trivial, h⟩, And.right⟩
  | cons operation rest ih =>
      have hrest := ih (w.step operation)
      exact (and_congr_right fun _ => hrest).trans and_assoc.symm

/-- At some point of the history a text was searched for: it is what was left of a text that was
typed, or composed by picking, once operator and comparison were taken off. -/
def SearchedFor (w : Watch) (history : List Operation) (search : String) : Prop :=
  ∃ earlier operation later q, history = earlier ++ operation :: later ∧
    (w.after earlier).bar.called? operation = some q ∧ q.search = search

/-- At some point of the history an answer with the item was delivered, to a request about that
definition that had been handed out by then. -/
def AnsweredWith (w : Watch) (history : List Operation) (source : String) (definition : Nat)
    (item : Item) : Prop :=
  ∃ earlier a later, history = earlier ++ .takeAnswer a :: later ∧
    (∃ r ∈ (w.after earlier).handedOut, a.Answers r) ∧ a.source = source ∧
      a.definition = definition ∧ item ∈ a.items

theorem SearchedFor.append {search : String} (h : w.SearchedFor history search)
    (more : List Operation) : w.SearchedFor (history ++ more) search := by
  obtain ⟨earlier, operation, later, q, rfl, hcalled, hsearch⟩ := h
  exact ⟨earlier, operation, later ++ more, q, by simp, hcalled, hsearch⟩

theorem AnsweredWith.append {source : String} {definition : Nat} {item : Item}
    (h : w.AnsweredWith history source definition item) (more : List Operation) :
    w.AnsweredWith (history ++ more) source definition item := by
  obtain ⟨earlier, a, later, rfl, hanswers⟩ := h
  exact ⟨earlier, a, later ++ more, by simp, hanswers⟩

/-! ### The invariant -/

/-- All that there is in the row, and all that is offered, goes back to texts that were searched for
and items that were answered. -/
structure Traced (w : Watch) (searched : String → Prop)
    (answered : String → Nat → Item → Prop) : Prop where
  row : ∀ m ∈ w.bar.matchers, m.HasOrigin w.bar.config searched answered
  asked : ∀ q, w.asked = some q → searched q.search
  landed : ∀ a ∈ w.landed, ∀ item ∈ a.items, answered a.source a.definition item

theorem Traced.mono {searched' : String → Prop} {answered' : String → Nat → Item → Prop}
    (h : w.Traced searched answered) (hsearched : ∀ t, searched t → searched' t)
    (hanswered : ∀ source index item, answered source index item → answered' source index item) :
    w.Traced searched' answered' where
  row m hm := (h.row m hm).mono hsearched hanswered
  asked q hq := hsearched _ (h.asked q hq)
  landed a ha item hitem := hanswered _ _ _ (h.landed a ha item hitem)

/-- What the box offers goes back to the search that is open and to the answers that have landed. -/
theorem Traced.makes (h : w.Traced searched answered) (hsound : w.Sound)
    (hnames : (w.bar.config.sources.map (·.name)).Nodup) (ho : w.bar.box.buckets.Shows o)
    (hplain : o.isFunction = false) : w.bar.config.Makes searched answered o := by
  cases hq : w.inquiry with
  | none =>
      rw [(hsound.closed hq).2] at ho
      obtain ⟨bucket, hbucket, -⟩ := ho
      contradiction
  | some q =>
      obtain ⟨hshown, hconfig, hgiven⟩ := hsound.shown q hq
      have hasked : w.asked = some q := by
        unfold inquiry at hq
        split at hq
        · exact hq
        · contradiction
      rw [hshown.buckets] at ho
      rw [← hconfig] at hnames ⊢
      have hlanded : ∀ a ∈ w.landed, ∃ r ∈ q.findings.pending,
          a.source = r.source ∧ a.definition = r.definition := by
        intro a ha
        obtain ⟨r, hr, hanswers⟩ := hsound.landed a ha
        exact ⟨r, hgiven ▸ hr, hanswers.2.2⟩
      rcases SearchContext.explains_of_shown hnames hlanded ho with hfunction | hmakes
      · rw [hplain] at hfunction
        contradiction
      · refine hmakes.mono ?_ ?_
        · rintro _ rfl
          exact h.asked q hasked
        · rintro _ _ item ⟨a, ha, rfl, rfl, hitem⟩
          exact h.landed a ha item hitem

/-- A matcher that the box wishes into the row is accounted for. -/
theorem Traced.hasOrigin (h : w.Traced searched answered) (hsound : w.Sound)
    (hnames : (w.bar.config.sources.map (·.name)).Nodup) (hm : w.bar.box.Wishes m) :
    m.HasOrigin w.bar.config searched answered := by
  cases hm with
  | bracket key bracket operator hm =>
      subst hm
      exact Or.inl ⟨by cases bracket <;> rfl, rfl, rfl, rfl⟩
  | freeText key text hm =>
      subst hm
      exact Or.inr (Or.inl ⟨rfl, rfl, rfl⟩)
  | offered o hshown hplain hsource hvalue htext =>
      obtain ⟨s, hs, hname, hmakes⟩ := h.makes hsound hnames hshown hplain
      exact Or.inr (Or.inr ⟨s, hs, hsource.trans hname, hvalue ▸ htext ▸ hmakes⟩)

/-- **An operation brings nothing in that is not accounted for**, once its own search and its own
answer are added to the account. -/
theorem Traced.step (h : w.Traced searched answered) (hsound : w.Sound)
    (hnames : (w.bar.config.sources.map (·.name)).Nodup) (hown : operation.handsOver = false)
    (hadmits : w.Admits operation)
    (hsearched : ∀ q, w.bar.called? operation = some q → searched q.search)
    (hanswered : ∀ a, operation = .takeAnswer a → (∃ r ∈ w.handedOut, a.Answers r) →
      ∀ item ∈ a.items, answered a.source a.definition item) :
    (w.step operation).Traced searched answered := by
  have hrow : ∀ m ∈ (w.step operation).bar.matchers,
      m.HasOrigin (w.step operation).bar.config searched answered := by
    obtain ⟨e, heffect⟩ := Bar.exists_effect w.bar operation
    intro m hm
    rw [bar_step] at hm ⊢
    rw [heffect.config]
    rcases Bar.mem_perform_of_own hown hm with hold | ⟨n, hn, hcame⟩
    · exact h.row m hold
    · exact h.hasOrigin hsound hnames (Bar.wishes_of_mem_notices hn hcame)
  cases operation with
  | input text => exact ⟨hrow, hsearched, by simp [Watch.step, typed]⟩
  | compose operator comparison => exact ⟨hrow, hsearched, by simp [Watch.step, typed]⟩
  | takeAnswer a =>
      refine ⟨hrow, h.asked, ?_⟩
      show ∀ a' ∈ (if w.live.any (a.Answers ·) then w.landed ++ [a] else w.landed), _
      split
      · rename_i hlive
        intro a' ha'
        rcases List.mem_append.mp ha' with hold | hnew
        · exact h.landed a' hold
        · rw [List.mem_singleton.mp hnew]
          refine hanswered a rfl ?_
          -- What has landed is for this bar, so that the request was handed out by it.
          obtain ⟨r, hr, hlands⟩ := List.any_eq_true.mp hlive
          obtain ⟨-, -, -, howner, -⟩ := hsound.of_mem_live hr
          obtain ⟨r', hanswers, hknown⟩ := hadmits
          refine ⟨r', hknown.resolve_right fun hother => hother ?_, hanswers⟩
          exact hanswers.1.symm.trans ((of_decide_eq_true hlands).1.trans howner)
      · exact h.landed
  | _ => exact ⟨hrow, h.asked, h.landed⟩

/-! ### Along a history -/

theorem Reachable.after (h : Reachable w) (hadmits : w.AtEach Admits history) :
    Reachable (w.after history) := by
  induction history generalizing w with
  | nil => exact h
  | cons operation rest ih => exact ih (h.step operation hadmits.1) hadmits.2

/-- Along every history all is accounted for by what came up in it. -/
theorem traced_after (hbuilt : b.Built) (hempty : b.matchers = [])
    (hnames : (b.config.sources.map (·.name)).Nodup)
    (hown : ∀ operation ∈ history, operation.handsOver = false)
    (hadmits : (on b).AtEach Admits history) :
    ((on b).after history).Traced ((on b).SearchedFor history) ((on b).AnsweredWith history) := by
  induction history using List.reverseRecOn with
  | nil =>
      refine ⟨fun m hm => ?_, fun q hq => ?_, fun a ha => ?_⟩
      · have hrow : m ∈ b.matchers := hm
        rw [hempty] at hrow
        contradiction
      · contradiction
      · contradiction
  | append_singleton earlier operation ih =>
      obtain ⟨hearlier, hlast, -⟩ := (atEach_append _ _ _).mp hadmits
      have hbefore := ih (fun o ho => hown o (List.mem_append_left _ ho)) hearlier
      have hconfig : ((on b).after earlier).bar.config = b.config := by
        rw [bar_after]
        exact Bar.config_run b earlier
      rw [after_concat]
      refine (hbefore.mono (fun _ ht => ht.append _) fun _ _ _ ha => ha.append _).step
        (sound_reachable ((reachable_on hbuilt).after hearlier)) (hconfig ▸ hnames)
        (hown operation (by simp)) hlast ?_ ?_
      · intro q hq
        exact ⟨earlier, operation, [], q, rfl, hq, rfl⟩
      · rintro a rfl hanswers item hitem
        exact ⟨earlier, a, [], rfl, hanswers, rfl, rfl, hitem⟩

/-- **No value in the row is made up.**  After any history of a bar that was set up empty and was
never handed a matcher or a row, each matcher in its row is a bracket, which stands for nothing, or
free text, or it stands for something that a source of that name has made: of an item of a list
that accepted a text which was searched for before, of an item that was answered to a request of
the bar about a list of that source, or of a text that was searched for before and passed a test of
it. -/
theorem row_never_invented (hbuilt : b.Built) (hempty : b.matchers = [])
    (hcheck : b.config.check = .ok ())
    (hown : ∀ operation ∈ history, operation.handsOver = false)
    (hadmits : (on b).AtEach Admits history) :
    ∀ m ∈ (b.run history).matchers, m.HasOrigin b.config ((on b).SearchedFor history)
      ((on b).AnsweredWith history) := by
  have htraced := traced_after hbuilt hempty (Config.nodup_names hcheck) hown hadmits
  intro m hm
  have horigin := htraced.row m (by rw [bar_after]; exact hm)
  rw [bar_after] at horigin
  exact (Bar.config_run b history) ▸ horigin

/-- Colours that are known beforehand, and ships that a service knows. -/
def harbour : Config :=
  .ofSources
    [{ name := "colour", title := "Colours", comparisons := ["="]
       definitions := [.list { supply := .items [.text "red"] }] },
     { name := "ship", title := "Ships", comparisons := ["="]
       definitions := [.list { supply := .service ⟨fun _ => [.text "Vasa"], fun _ => 0⟩ }] }]

/-- The Vasa, as the service answers it to the text that is typed second. -/
def vasa : LookupAnswer where
  owner := 0
  token := 3
  source := "ship"
  definition := 0
  items := [.text "Vasa"]

/-- A colour and a ship are chosen. -/
theorem row_never_invented_harbour :
    let b := Bar.new harbour 0
    let history := [.input "red", .choose 0 false, .input "va", .takeAnswer vasa, .choose 0 false]
    b.Built ∧ b.matchers = [] ∧ b.config.check = .ok () ∧
      (∀ operation ∈ history, operation.handsOver = false) ∧ (on b).AtEach Admits history ∧
      (b.run history).matchers.map (·.text) = ["red", "Vasa"] ∧
      ∀ m ∈ (b.run history).matchers, ∃ s ∈ b.config.sources, m.source = s.name ∧
        s.Makes ((on b).SearchedFor history) ((on b).AnsweredWith history s.name) m.value
          m.text := by
  intro b history
  have hbuilt : b.Built := .new harbour 0
  have hcheck : b.config.check = .ok () := by decide
  have hown : ∀ operation ∈ history, operation.handsOver = false := by decide
  have hrequest : ∃ r ∈ ((on b).after [.input "red", .choose 0 false, .input "va"]).handedOut,
      vasa.Answers r := by
    decide +kernel
  obtain ⟨r, hr, hanswers⟩ := hrequest
  have hadmits : (on b).AtEach Admits history :=
    ⟨trivial, trivial, trivial, ⟨r, hanswers, Or.inl hr⟩, trivial, trivial⟩
  have hplain : ∀ m ∈ (b.run history).matchers, m.source ≠ "" ∧ m.source ≠ freeTextSource := by
    decide +kernel
  refine ⟨hbuilt, rfl, hcheck, hown, hadmits, by decide +kernel, fun m hm => ?_⟩
  rcases row_never_invented hbuilt rfl hcheck hown hadmits m hm with
    ⟨-, hsource, -⟩ | ⟨-, hsource, -⟩ | hmade
  · exact absurd hsource (hplain m hm).1
  · exact absurd hsource (hplain m hm).2
  · exact hmade

end Watch

end QueryBar
