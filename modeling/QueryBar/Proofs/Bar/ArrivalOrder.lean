/-
The order in which answers arrive.

It matters only if the answers to the requests for a text are not apart in some category
(`AnswersApart`), and then there are answers with which it does.  A configuration can make
sure of that for all texts (`Config.KeepsAnswersApart`).

`Config.check` does not ask for it: it looks at the names of sources only, so it accepts
configurations in which the services of two sources answer into one category, and ones in
which items under a limit of nought and an empty answer meet.  In both the order shows.
-/
import QueryBar.Proofs.Bar.Typing
import QueryBar.Proofs.Search.Apart

namespace QueryBar.Bar

/-- The buckets that the open box shows when a text has been typed and requests have been answered
in the given order. -/
def arrived (b : Bar) (text : String) (items : LookupRequest → List Item)
    (rs : List LookupRequest) : Buckets :=
  ((b.input text).1.takeAll (rs.map (·.answeredBy items))).1.box.buckets

/-- The answers to the requests for a text are apart in every category, as the box shows it
before any of them has come. -/
def AnswersApart (b : Bar) (text : String) : Prop :=
  ∀ title, Entry.Apart ((b.input text).1.box.buckets.bucket? title) b.config.showWhenSearching
    (b.config.stakes title (b.input text).2)

variable {b : Bar} {text : String} {items : LookupRequest → List Item}
  {rs : List LookupRequest} {q : Inquiry}

theorem arrived_of_inquiry (h : b.inquiry? text = some q)
    (hrs : ∀ r ∈ rs, r ∈ q.findings.pending) :
    b.arrived text items rs
      = q.findings.buckets.withAnswers b.config (rs.map (·.answeredBy items)) := by
  rw [← config_of_inquiry h]
  exact (shownBy_answered h items hrs).buckets

/-- Where nothing is searched for, nothing is at stake. -/
theorem answersApart_of_no_inquiry (h : b.inquiry? text = none) : b.AnswersApart text := by
  intro title
  rw [(input_of_no_inquiry h).1]
  exact ⟨by simp [Config.stakes], by simp [Config.stakes], by simp [Config.stakes]⟩

theorem answersApart_iff (h : b.inquiry? text = some q) :
    b.AnswersApart text ↔ ∀ title, Entry.Apart (q.findings.buckets.bucket? title)
      b.config.showWhenSearching (b.config.stakes title q.findings.pending) := by
  obtain ⟨hrequests, hshown⟩ := input_of_inquiry h
  unfold AnswersApart
  rw [hrequests, hshown.buckets]
  rfl

/-- **A configuration that keeps answers apart does so for every text.** -/
theorem answersApart_of_config (hcheck : b.config.check = .ok ())
    (hapart : b.config.KeepsAnswersApart b.function) (text : String) : b.AnswersApart text := by
  cases h : b.inquiry? text with
  | none => exact answersApart_of_no_inquiry h
  | some q =>
      rw [answersApart_iff h]
      obtain ⟨-, -, rfl⟩ := of_inquiry?_eq_some h
      exact SearchContext.apart_find hapart (Config.nodup_names hcheck) _ _

/-- **Arrival order never matters, just when the answers for the text are apart**: whatever is
answered to the requests, any two orders leave the same buckets in the open box. -/
theorem arrival_order_never_matters_iff_apart (b : Bar) (text : String)
    (hcheck : b.config.check = .ok ()) :
    (∀ (items : LookupRequest → List Item) (rs rs' : List LookupRequest),
      rs.Perm (b.input text).2 → rs'.Perm (b.input text).2 →
        b.arrived text items rs = b.arrived text items rs')
      ↔ b.AnswersApart text := by
  cases h : b.inquiry? text with
  | none =>
      refine iff_of_true ?_ (answersApart_of_no_inquiry h)
      intro items rs rs' hrs hrs'
      rw [(input_of_no_inquiry h).1] at hrs hrs'
      rw [hrs.eq_nil, hrs'.eq_nil]
  | some q =>
      have hbuckets : ∀ (items : LookupRequest → List Item) (rs : List LookupRequest),
          rs.Perm q.findings.pending → b.arrived text items rs
            = q.findings.buckets.withAnswers b.config (rs.map (·.answeredBy items)) :=
        fun items rs hrs => arrived_of_inquiry h fun r hr => hrs.subset hr
      have hrequests := (input_of_inquiry h).1
      rw [answersApart_iff h, hrequests]
      obtain ⟨-, -, rfl⟩ := of_inquiry?_eq_some h
      refine Iff.trans ?_ (SearchContext.find_indifferent_iff (Config.nodup_names hcheck))
      constructor
      · intro hsame items rs rs' hrs hrs'
        exact (hbuckets items rs hrs).symm.trans
          ((hsame items rs rs' hrs hrs').trans (hbuckets items rs' hrs'))
      · intro hsame items rs rs' hrs hrs'
        exact (hbuckets items rs hrs).trans
          ((hsame items rs rs' hrs hrs').trans (hbuckets items rs' hrs').symm)

/-! ### Where the order does not matter, and where it does -/

/-- A list of which a service finds the same items whatever it is asked. -/
def served (items : List Item) (limit : Option Nat) : Definition :=
  .list { supply := .service ⟨fun _ => items, fun _ => 0⟩, itemLimit := limit }

/-- What the bar shows, with titles and texts only, once its services have answered in the given
order. -/
def shownAfter (b : Bar) (text : String) (rs : List LookupRequest) :
    List (String × List String) :=
  (b.arrived text (fun r => r.service.answer r.query) rs).map fun bucket =>
    (bucket.title, bucket.options.map (·.text))

/-- A bar with a source that asks two services and one that asks a third. -/
def threeServices : Bar :=
  Bar.new
    { Config.ofSources
        [{ name := "colour", title := "Colours", comparisons := ["="]
           definitions := [served [.text "red"] none, served [] none] },
         { name := "shade", title := "Shades", comparisons := ["="], precedence := some 1
           definitions := [served [.text "reddish"] none] }] with
      showWhenSearching := true }
    0

theorem keepsAnswersApart_threeServices :
    threeServices.config.KeepsAnswersApart threeServices.function where
  titles := by decide
  limits s hs _ _ l hl := by
    have hdefault : ∀ items l, served items none = .list l → l.limit 10 ≠ 0 := by
      intro items l hlist
      obtain rfl := Definition.list.inj hlist
      show (10 : Nat) ≠ 0
      decide
    rcases List.mem_cons.mp hs with rfl | hs
    · rcases List.mem_cons.mp hl with hl | hl
      · exact hdefault _ l hl.symm
      · exact hdefault _ l (List.mem_singleton.mp hl).symm
    · obtain rfl := List.mem_singleton.mp hs
      exact hdefault _ l (List.mem_singleton.mp hl).symm

theorem arrival_order_never_matters_iff_apart_threeServices :
    let requests := (threeServices.input "re").2
    let items := fun r : LookupRequest => r.service.answer r.query
    threeServices.config.check = .ok () ∧ threeServices.AnswersApart "re" ∧
      threeServices.arrived "re" items requests
        = threeServices.arrived "re" items requests.reverse ∧
      threeServices.shownAfter "re" requests
        = [("Shades", ["reddish"]), ("Colours", ["red"])] := by
  intro requests items
  have hcheck : threeServices.config.check = .ok () := rfl
  have hapart := answersApart_of_config hcheck keepsAnswersApart_threeServices "re"
  refine ⟨hcheck, hapart, ?_, by decide⟩
  exact (arrival_order_never_matters_iff_apart threeServices "re" hcheck).mpr hapart items
    requests requests.reverse (List.Perm.refl _) (List.reverse_perm _)

/-- Two sources that ask services and share a title. -/
def oneTitle : Bar :=
  Bar.new
    (Config.ofSources
      [{ name := "colour", title := "Colours", comparisons := ["="]
         definitions := [served [.text "red"] none] },
       { name := "shade", title := "Colours", comparisons := ["="]
         definitions := [served [.text "reddish"] none] }])
    0

/-- **Under one title the order shows**: the suggestions stand in the order of arrival. -/
theorem arrival_order_matters_under_one_title :
    let requests := (oneTitle.input "re").2
    oneTitle.config.check = .ok () ∧
      oneTitle.shownAfter "re" requests = [("Colours", ["red", "reddish"])] ∧
      oneTitle.shownAfter "re" requests.reverse = [("Colours", ["reddish", "red"])] :=
  ⟨rfl, by decide, by decide⟩

/-- A source that asks two services, one of them for a list of which nothing is to be shown. -/
def noughtLimit : Bar :=
  Bar.new
    { Config.ofSources
        [{ name := "colour", title := "Colours", comparisons := ["="]
           definitions := [served [.text "red"] (some 0), served [] none] }] with
      showWhenSearching := true }
    0

/-- **Under a limit of nought the order shows**: an empty answer removes what has been found, but
not what is found after it. -/
theorem arrival_order_matters_under_nought_limit :
    let requests := (noughtLimit.input "re").2
    noughtLimit.config.check = .ok () ∧
      noughtLimit.shownAfter "re" requests = [] ∧
      noughtLimit.shownAfter "re" requests.reverse = [("Colours", [])] :=
  ⟨rfl, by decide, by decide⟩

end QueryBar.Bar
