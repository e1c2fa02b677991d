/-
What handling leaves under a title.

What is done to a list of buckets, one thing after the other, shows under a title as what is done
about that title (`Buckets.bucket?_handled`).  So whether a bucket is left there that shows nothing
can be read off the handlings, without a look at any bucket in between.

There are two parts to it.  Something is there if the last thing done was not a release.  And what
a definition holds is settled by its last delivery alone: if the limit of that is nought,
everything that the definition had delivered before is cut away with it.  Together they make up
`Hollow` handlings (`Entry.shown_handled_iff`).
-/
import QueryBar.Proofs.Buckets.Handled
import QueryBar.Proofs.Search.Gathering

namespace QueryBar

namespace Buckets.Handling

/-- The title that the handling is about. -/
def title : Handling → String
  | .file x => x.category.title
  | .release title => title

def delivery? : Handling → Option Delivery
  | .file x => x.delivery?
  | .release _ => none

/-- The last delivery of a definition. -/
def lastOf (origin : Nat) (calls : List Handling) : Option Delivery :=
  ((calls.filterMap delivery?).filter (·.origin == origin)).getLast?

/-- The last thing done was a delivery, and of no definition does anything count in the end. -/
structure Hollow (calls : List Handling) : Prop where
  delivered : ∃ d, calls.getLast? = some (.file (.deliver d))
  spent : ∀ origin d, lastOf origin calls = some d → d.limit = some 0

/-- All that is delivered is something. -/
def Filled (calls : List Handling) : Prop :=
  ∀ d, .file (.deliver d) ∈ calls → d.options ≠ []

variable {calls : List Handling} {x : Handling} {d : Delivery} {origin : Nat}

theorem delivery?_eq_some (h : x.delivery? = some d) : x = .file (.deliver d) := by
  rcases x with (e | c) | title
  · rw [Option.some.inj h]
  · contradiction
  · contradiction

theorem lastOf_concat_of_none (h : x.delivery? = none) (origin : Nat) (calls : List Handling) :
    lastOf origin (calls ++ [x]) = lastOf origin calls := by
  simp [lastOf, h]

theorem lastOf_concat_deliver (d : Delivery) (origin : Nat) (calls : List Handling) :
    lastOf origin (calls ++ [.file (.deliver d)])
      = if d.origin = origin then some d else lastOf origin calls := by
  unfold lastOf
  rw [List.filterMap_append, List.filter_append]
  by_cases horigin : d.origin = origin
  · simp [delivery?, Filing.delivery?, horigin]
  · simp [delivery?, Filing.delivery?, horigin]

/-- Where the handlings are hollow, the limit of a delivery is nought. -/
theorem Hollow.exists_nought (h : Hollow calls) :
    ∃ d, .file (.deliver d) ∈ calls ∧ d.limit = some 0 := by
  obtain ⟨d, hlast⟩ := h.delivered
  obtain ⟨before, rfl⟩ := List.getLast?_eq_some_iff.mp hlast
  refine ⟨d, by simp, h.spent d.origin d ?_⟩
  rw [lastOf_concat_deliver, if_pos rfl]

end Buckets.Handling

open Buckets (Handling)

/-! ### One entry -/

namespace Entry

variable {entry : Entry} {calls : List Handling} {x : Handling} {d : Delivery} {origin : Nat}

/-- The entry after something has been done about its title. -/
def handle (entry : Entry) : Handling → Entry
  | .file (.deliver d) => some ((entry.opened d.category).contribute d.origin d.options d.limit)
  | .file (.reserve c) => some (entry.opened c)
  | .release _ => entry.released

/-- What has been done about a title leaves this there. -/
def handled (calls : List Handling) : Entry := calls.foldl handle none

theorem handled_concat (calls : List Handling) (x : Handling) :
    handled (calls ++ [x]) = (handled calls).handle x := by
  simp [handled]

theorem Proper.handle (h : entry.Proper) (x : Handling) : (entry.handle x).Proper := by
  rcases x with (d | c) | title
  · intro b hb
    obtain rfl := Option.some.inj hb
    exact (h.opened d.category).contribute ..
  · intro b hb
    obtain rfl := Option.some.inj hb
    exact h.opened c
  · exact h.released

theorem proper_handled (calls : List Handling) : (handled calls).Proper := by
  induction calls using List.reverseRecOn with
  | nil => intro b hb; contradiction
  | append_singleton calls x ih =>
      rw [handled_concat]
      exact ih.handle x

/-- Only a delivery changes what a definition holds. -/
theorem held_handle_of_none (h : entry.Proper) (hx : x.delivery? = none) (origin : Nat) :
    (entry.handle x).held origin = entry.held origin := by
  rcases x with (d | c) | title
  · contradiction
  · exact held_opened entry c origin
  · exact held_released h origin

theorem held_handle_deliver (h : entry.Proper) (d : Delivery) (origin : Nat) :
    (entry.handle (.file (.deliver d))).held origin
      = if d.origin = origin then
          capped d.limit (Suggestion.joinDistinct (entry.held d.origin) d.options)
        else entry.held origin := by
  show ((entry.opened d.category).contribute d.origin d.options d.limit).held origin = _
  rw [Bucket.held_contribute (h.opened d.category), held_opened, held_opened]

/-- **A definition holds nothing just when it has delivered nothing, or its last delivery has a limit
of nought.** -/
theorem held_handled_eq_nil_iff (h : Handling.Filled calls) (origin : Nat) :
    (handled calls).held origin = []
      ↔ ∀ d, Handling.lastOf origin calls = some d → d.limit = some 0 := by
  induction calls using List.reverseRecOn with
  | nil => exact iff_of_true rfl (by simp [Handling.lastOf])
  | append_singleton calls x ih =>
      have hbefore : Handling.Filled calls := fun d hd => h d (List.mem_append_left _ hd)
      rw [handled_concat]
      cases hx : x.delivery? with
      | none =>
          rw [held_handle_of_none (proper_handled calls) hx, Handling.lastOf_concat_of_none hx]
          exact ih hbefore
      | some d =>
          obtain rfl := Handling.delivery?_eq_some hx
          rw [held_handle_deliver (proper_handled calls), Handling.lastOf_concat_deliver]
          split
          · have hfound : Suggestion.joinDistinct ((handled calls).held d.origin) d.options ≠ [] :=
              Suggestion.joinDistinct_ne_nil (Or.inr (h d (by simp)))
            constructor
            · rintro hnothing e heq
              obtain rfl := Option.some.inj heq
              by_contra hlimit
              exact capped_ne_nil hlimit hfound hnothing
            · intro hlimit
              rw [hlimit d rfl]
              rfl
          · exact ih hbefore

/-- **The entry shows something, if it is there at all, just when the handlings are not hollow.** -/
theorem shown_handled_iff (h : Handling.Filled calls)
    (hkept : ∀ c, calls.getLast? ≠ some (.file (.reserve c))) :
    (handled calls).Shown ↔ ¬ Handling.Hollow calls := by
  have hspent : (∀ origin, (handled calls).held origin = [])
      ↔ ∀ origin d, Handling.lastOf origin calls = some d → d.limit = some 0 :=
    forall_congr' (held_handled_eq_nil_iff h)
  have hproper := proper_handled calls
  constructor
  · rintro hshown ⟨⟨d, hlast⟩, hlimits⟩
    obtain ⟨before, rfl⟩ := List.getLast?_eq_some_iff.mp hlast
    obtain ⟨b, hb⟩ : ∃ b, handled (before ++ [.file (.deliver d)]) = some b := by
      rw [handled_concat]
      exact ⟨_, rfl⟩
    have hblank := hspent.mpr hlimits
    rw [hb] at hblank
    have hempty := (Bucket.isPlaceholder_iff (hproper b hb)).mpr hblank
    rw [hshown b hb] at hempty
    contradiction
  · intro hnot b hb
    by_contra hempty
    rw [Bool.not_eq_false] at hempty
    have hblank : ∀ origin, (handled calls).held origin = [] := by
      rw [hb]
      exact (Bucket.isPlaceholder_iff (hproper b hb)).mp hempty
    refine hnot ⟨?_, hspent.mp hblank⟩
    cases hlast : calls.getLast? with
    | none =>
        rw [List.getLast?_eq_none_iff.mp hlast] at hb
        contradiction
    | some x =>
        rcases x with (d | c) | title
        · exact ⟨d, rfl⟩
        · exact absurd hlast (hkept c)
        · obtain ⟨before, rfl⟩ := List.getLast?_eq_some_iff.mp hlast
          rw [handled_concat] at hb
          have hseen : (!b.isPlaceholder) = true := (Option.filter_eq_some_iff.mp hb).2
          rw [hempty] at hseen
          contradiction

end Entry

/-! ### All entries -/

namespace Buckets

variable {bs : Buckets}

/-- Something that is done changes the entry of its title and no other. -/
theorem bucket?_handle (htitles : (bs.map (·.title)).Nodup) (x : Handling) (title : String) :
    (bs.handle x).bucket? title
      = if x.title = title then Entry.handle (bs.bucket? title) x else bs.bucket? title := by
  by_cases htitle : x.title = title
  · subst htitle
    rw [if_pos rfl]
    rcases x with (d | c) | released
    · exact (bucket?_merge ..).trans (if_pos rfl)
    · exact (bucket?_reserve ..).trans (if_pos rfl)
    · exact (bucket?_release htitles ..).trans (if_pos rfl)
  · rw [if_neg htitle]
    rcases x with (d | c) | released
    · exact (bucket?_merge ..).trans (if_neg htitle)
    · exact (bucket?_reserve ..).trans (if_neg htitle)
    · exact (bucket?_release htitles ..).trans (if_neg htitle)

theorem handled_append (calls more : List Handling) :
    handled (calls ++ more) = more.foldl handle (handled calls) :=
  List.foldl_append

/-- **Under a title there is what has been done about it.** -/
theorem bucket?_handled (calls : List Handling) (title : String) :
    (handled calls).bucket? title = Entry.handled (calls.filter (·.title == title)) := by
  induction calls using List.reverseRecOn with
  | nil => rfl
  | append_singleton calls x ih =>
      have htitles := (wellKept_handled calls).1.titles
      rw [handled_append, List.foldl_cons, List.foldl_nil, bucket?_handle htitles, ih,
        List.filter_append]
      by_cases htitle : x.title = title
      · rw [if_pos htitle, List.filter_cons_of_pos (by simpa using htitle), List.filter_nil,
          Entry.handled_concat]
      · rw [if_neg htitle, List.filter_cons_of_neg (by simpa using htitle), List.filter_nil,
          List.append_nil]

end Buckets

end QueryBar
