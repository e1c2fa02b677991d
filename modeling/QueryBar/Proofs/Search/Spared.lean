/-
What becomes of suggestions that are delivered first.

Suggestions that are delivered to a new category, for its first definition and without a limit,
stand in front of all that is delivered there later.  They stay all that the category shows just
when they are spared (`Handling.Spares`): no later delivery for the same definition cuts them, and
what else is held there is either nothing new or finds no room.

As long as they are not cut, the category is never released, so that its contributions can be read
off the deliveries (`Bucket.Records`): what a definition holds comes of its deliveries one after
the other, and its limit is that of the last one.  In general a release takes away the limits too.
What is held does not depend on that, as nothing is held when a category is released
(`Entry.held_handled`).
-/
import QueryBar.Proofs.Search.Handlings

namespace QueryBar

/-! ### Joins -/

namespace Suggestion

variable {options more : List Suggestion}

/-- A join that is cut shows nothing but what was there before just when it adds nothing, or is cut
right behind that. -/
theorem capped_joinDistinct_eq_iff {limit : Option Nat}
    (hroom : ∀ k, limit = some k → options.length ≤ k) :
    capped limit (joinDistinct options more) = options ↔
      (∀ o ∈ more, ∃ s ∈ options, s.agrees o = true) ∨ limit = some options.length := by
  rw [← joinDistinct_eq_self_iff]
  cases limit with
  | none => simp [capped]
  | some k =>
      have hk := hroom k rfl
      have hfront := prefix_joinDistinct options more
      show (joinDistinct options more).take k = options ↔ _
      rw [Option.some.injEq]
      constructor
      · intro hcut
        by_cases hlength : k = options.length
        · exact Or.inr hlength
        · -- The cut is further behind, so that all of the join is before it.
          have hmin := congrArg List.length hcut
          rw [List.length_take] at hmin
          exact Or.inl (hfront.eq_of_length (by omega)).symm
      · rintro (hsame | rfl)
        · rw [hsame, List.take_of_length_le hk]
        · exact List.prefix_iff_eq_take.mp hfront |>.symm

/-- A delivery without function names leaves no more of them than there were. -/
theorem sublist_filter_capped (held : List Suggestion) (limit : Option Nat)
    (hplain : ∀ o ∈ more, o.isFunction = false) :
    ((capped limit (joinDistinct held more)).filter (·.isFunction)).Sublist
      (held.filter (·.isFunction)) := by
  obtain ⟨added, hjoin, hsub⟩ := exists_joinDistinct_eq held more
  have hadded : added.filter (·.isFunction) = [] := by
    rw [List.filter_eq_nil_iff]
    intro o ho
    simp [hplain o (hsub.subset ho)]
  have hcut := (sublist_capped limit (joinDistinct held more)).filter (·.isFunction)
  rw [hjoin, List.filter_append, hadded, List.append_nil] at hcut
  rw [hjoin]
  exact hcut

end Suggestion

/-! ### What deliveries come to -/

namespace Buckets.Handling

/-- What a definition holds after its deliveries: each is joined to what was held, and its limit
cuts all of that. -/
def heldBy (origin : Nat) (calls : List Handling) : List Suggestion :=
  ((calls.filterMap delivery?).filter (·.origin == origin)).foldl
    (fun held d => capped d.limit (Suggestion.joinDistinct held d.options)) []

/-- No delivery for the first definition has a limit below the number of names. -/
def Uncut (names : List Suggestion) (calls : List Handling) : Prop :=
  ∀ d, .file (.deliver d) ∈ calls → d.origin = 0 → ∀ m, d.limit = some m → names.length ≤ m

/-- What else is held shows no new value, or the limits leave room for the names alone. -/
def Alone (names : List Suggestion) (calls : List Handling) : Prop :=
  (∀ origin, ∀ o ∈ heldBy origin calls, ∃ s ∈ names, s.agrees o = true) ∨
    ∀ origin d, lastOf origin calls = some d → ∃ m, m ≤ names.length ∧ d.limit = some m

/-- What is done leaves the names that are delivered first as they are, and adds nothing. -/
structure Spares (names : List Suggestion) (calls : List Handling) : Prop where
  uncut : Uncut names calls
  alone : Alone names calls

/-- A release comes last, if anything is done at all, and of no definition does anything count in
the end. -/
structure Vacant (calls : List Handling) : Prop where
  released : ∀ x, calls.getLast? ≠ some (.file x)
  spent : ∀ origin d, lastOf origin calls = some d → d.limit = some 0

variable {calls : List Handling} {names : List Suggestion} {x : Handling} {origin : Nat}

theorem heldBy_concat_of_none (h : x.delivery? = none) (origin : Nat) (calls : List Handling) :
    heldBy origin (calls ++ [x]) = heldBy origin calls := by
  simp [heldBy, h]

theorem heldBy_concat_deliver (d : Delivery) (origin : Nat) (calls : List Handling) :
    heldBy origin (calls ++ [.file (.deliver d)])
      = if d.origin = origin then
          capped d.limit (Suggestion.joinDistinct (heldBy d.origin calls) d.options)
        else heldBy origin calls := by
  unfold heldBy
  rw [List.filterMap_append, List.filter_append]
  by_cases horigin : d.origin = origin
  · subst horigin
    simp [delivery?, Filing.delivery?, List.foldl_append]
  · simp [delivery?, Filing.delivery?, horigin]

theorem heldBy_of_lastOf (h : lastOf origin calls = none) : heldBy origin calls = [] := by
  unfold heldBy
  rw [List.getLast?_eq_none_iff.mp h]
  rfl

/-- **Function names that are cut do not come back**, if nothing that is delivered later has any:
no more of them are held than any limit of their definition allows. -/
theorem length_filter_heldBy_le {first : Delivery} {later : List Handling}
    (hfirst : first.limit = none)
    (hplain : ∀ d, .file (.deliver d) ∈ later → ∀ o ∈ d.options, o.isFunction = false)
    {d : Delivery} {m : Nat} (hd : .file (.deliver d) ∈ .file (.deliver first) :: later)
    (horigin : d.origin = origin) (hlimit : d.limit = some m) :
    ((heldBy origin (.file (.deliver first) :: later)).filter (·.isFunction)).length ≤ m := by
  induction later using List.reverseRecOn with
  | nil =>
      obtain rfl := Filing.deliver.inj (Handling.file.inj (List.mem_singleton.mp hd))
      rw [hfirst] at hlimit
      contradiction
  | append_singleton before x ih =>
      have hbefore := ih fun e he => hplain e (List.mem_append_left _ he)
      rw [← List.cons_append] at hd ⊢
      cases hx : x.delivery? with
      | none =>
          rw [heldBy_concat_of_none hx]
          refine hbefore ((List.mem_append.mp hd).resolve_right ?_)
          intro hlast
          rw [← List.mem_singleton.mp hlast] at hx
          contradiction
      | some e =>
          obtain rfl := delivery?_eq_some hx
          rw [heldBy_concat_deliver]
          rcases List.mem_append.mp hd with hold | hlast
          · split
            · rename_i he
              subst he
              exact (Suggestion.sublist_filter_capped _ _ (hplain e (by simp))).length_le.trans
                (hbefore hold)
            · exact hbefore hold
          · obtain rfl := Filing.deliver.inj (Handling.file.inj (List.mem_singleton.mp hlast))
            rw [if_pos horigin, hlimit]
            exact (List.length_filter_le ..).trans (List.length_take_le ..)

end Buckets.Handling

open Buckets (Handling)

/-! ### A bucket that is kept -/

namespace Bucket

variable {b : Bucket} {calls : List Handling} {names : List Suggestion} {x : Handling}
  {o : Suggestion}

/-- The contributions are what the deliveries come to, each with the limit of the last one. -/
structure Records (b : Bucket) (calls : List Handling) : Prop extends b.Proper where
  found : ∀ origin, b.contributions.find? (·.origin == origin)
    = (Handling.lastOf origin calls).map fun d => ⟨origin, Handling.heldBy origin calls, d.limit⟩

theorem records_empty (category : Category) : (empty category).Records [] :=
  ⟨proper_empty category, fun _ => rfl⟩

namespace Records

theorem held_eq (h : b.Records calls) (origin : Nat) :
    b.held origin = Handling.heldBy origin calls := by
  show ((b.contributions.find? (·.origin == origin)).map (·.options)).getD [] = _
  rw [h.found]
  cases hlast : Handling.lastOf origin calls with
  | none => exact (Handling.heldBy_of_lastOf hlast).symm
  | some d => rfl

theorem contribute (h : b.Records calls) (d : Delivery) :
    (b.contribute d.origin d.options d.limit).Records (calls ++ [.file (.deliver d)]) where
  toProper := h.toProper.contribute ..
  found := by
    intro origin
    show (Contribution.insert ..).find? _ = _
    rw [Contribution.find?_insert h.ascending, Handling.lastOf_concat_deliver,
      Handling.heldBy_concat_deliver]
    split
    · rename_i horigin
      subst horigin
      show some (Contribution.after (b.held d.origin) ..) = _
      rw [h.held_eq]
      rfl
    · exact h.found origin

theorem of_none (h : b.Records calls) (hx : x.delivery? = none) : b.Records (calls ++ [x]) where
  toProper := h.toProper
  found := by
    intro origin
    rw [Handling.lastOf_concat_of_none hx, Handling.heldBy_concat_of_none hx]
    exact h.found origin

theorem exists_of_lastOf (h : b.Records calls) {origin : Nat} {d : Delivery}
    (hd : Handling.lastOf origin calls = some d) :
    ⟨origin, Handling.heldBy origin calls, d.limit⟩ ∈ b.contributions := by
  refine List.mem_of_find?_eq_some ((h.found origin).trans ?_)
  rw [hd]
  rfl

theorem of_mem (h : b.Records calls) {c : Contribution} (hc : c ∈ b.contributions) :
    ∃ d, Handling.lastOf c.origin calls = some d ∧
      c = ⟨c.origin, Handling.heldBy c.origin calls, d.limit⟩ := by
  have hfound := (Contribution.find?_of_mem h.ascending hc).symm.trans (h.found c.origin)
  obtain ⟨d, hd, heq⟩ := Option.map_eq_some_iff.mp hfound.symm
  exact ⟨d, hd, heq.symm⟩

theorem mem_options_iff (h : b.Records calls) :
    o ∈ b.contributions.flatMap (·.options) ↔ ∃ origin, o ∈ Handling.heldBy origin calls := by
  rw [List.mem_flatMap]
  constructor
  · rintro ⟨c, hc, ho⟩
    obtain ⟨d, -, heq⟩ := h.of_mem hc
    rw [heq] at ho
    exact ⟨c.origin, ho⟩
  · rintro ⟨origin, ho⟩
    cases hlast : Handling.lastOf origin calls with
    | none =>
        rw [Handling.heldBy_of_lastOf hlast] at ho
        contradiction
    | some d => exact ⟨_, h.exists_of_lastOf hlast, ho⟩

/-- What the first definition holds comes first. -/
theorem exists_head (h : b.Records calls) (hheld : Handling.heldBy 0 calls ≠ []) :
    ∃ c rest, b.contributions = c :: rest ∧ c.options = Handling.heldBy 0 calls := by
  obtain ⟨d, hd⟩ : ∃ d, Handling.lastOf 0 calls = some d := by
    rw [← Option.isSome_iff_exists, Option.isSome_iff_ne_none]
    exact fun hnone => hheld (Handling.heldBy_of_lastOf hnone)
  have hmem := h.exists_of_lastOf hd
  have hascending := h.ascending
  cases hcs : b.contributions with
  | nil =>
      rw [hcs] at hmem
      contradiction
  | cons c rest =>
      rw [hcs] at hmem hascending
      refine ⟨c, rest, rfl, ?_⟩
      rcases List.mem_cons.mp hmem with heq | hrest
      · rw [← heq]
      · exact absurd ((List.pairwise_cons.mp hascending).1 _ hrest) (Nat.not_lt_zero _)

/-- The limit of the bucket leaves room for the names alone just when the last limits do. -/
theorem cap_eq_length_iff (h : b.Records calls) (hsome : b.contributions ≠ [])
    (hroom : ∀ k, Contribution.cap b.contributions = some k → names.length ≤ k) :
    Contribution.cap b.contributions = some names.length ↔
      ∀ origin d, Handling.lastOf origin calls = some d → ∃ m, m ≤ names.length ∧
        d.limit = some m := by
  constructor
  · exact fun hcap origin d hd => Contribution.limit_le_cap hcap (h.exists_of_lastOf hd)
  · intro hlimits
    obtain ⟨k, hk, hcap⟩ := Contribution.exists_cap_le (n := names.length) hsome fun c hc => by
      obtain ⟨d, hd, heq⟩ := h.of_mem hc
      rw [heq]
      exact hlimits c.origin d hd
    rw [hcap, Nat.le_antisymm hk (hroom k hcap)]

/-- **A bucket with the names in front shows them and nothing else just when they are alone.** -/
theorem options_eq_iff (h : b.Records calls)
    (hdistinct : names.Pairwise fun s t => ¬ s.agrees t = true)
    (hsame : ∀ s ∈ names, s.agrees s = true) (hsome : names ≠ [])
    (hfront : names <+: Handling.heldBy 0 calls) :
    b.options = names ↔ Handling.Alone names calls := by
  have hheld : Handling.heldBy 0 calls ≠ [] := fun hnil =>
    hsome (List.prefix_nil.mp (hnil ▸ hfront))
  obtain ⟨c, rest, hcs, hc⟩ := h.exists_head hheld
  have hmem : c ∈ b.contributions := hcs ▸ List.mem_cons_self
  obtain ⟨behind, hbehind⟩ := hfront
  -- The names come first in the join, and `others` are all that is joined to them.
  obtain ⟨others, hall⟩ : ∃ others, b.contributions.flatMap (·.options) = names ++ others :=
    ⟨behind ++ rest.flatMap (·.options), by
      rw [hcs, List.flatMap_cons, hc, ← hbehind, List.append_assoc]⟩
  have hroom : ∀ k, Contribution.cap b.contributions = some k → names.length ≤ k := by
    intro k hk
    obtain ⟨m, hle, hm⟩ := Contribution.limit_le_cap hk hmem
    have hwithin := h.within c hmem m hm
    rw [hc, ← hbehind, List.length_append] at hwithin
    omega
  have hnothing : (∀ o ∈ others, ∃ s ∈ names, s.agrees o = true) ↔
      ∀ origin, ∀ o ∈ Handling.heldBy origin calls, ∃ s ∈ names, s.agrees o = true := by
    constructor
    · intro hold origin o ho
      have hjoined := h.mem_options_iff.mpr ⟨origin, ho⟩
      rw [hall] at hjoined
      rcases List.mem_append.mp hjoined with hname | hother
      · exact ⟨o, hname, hsame o hname⟩
      · exact hold o hother
    · intro hold o ho
      obtain ⟨origin, hin⟩ := h.mem_options_iff.mp (hall ▸ List.mem_append_right names ho)
      exact hold origin o hin
  rw [options_eq, hall, Suggestion.joinDistinct_append,
    Suggestion.joinDistinct_nil_of_pairwise hdistinct,
    Suggestion.capped_joinDistinct_eq_iff hroom, hnothing,
    h.cap_eq_length_iff (List.ne_nil_of_mem hmem) hroom]
  exact Iff.rfl

end Records

end Bucket

/-! ### An entry -/

namespace Entry

variable {entry : Entry} {calls later : List Handling} {names : List Suggestion}
  {category : Category}

/-- **What a definition holds can be read off its deliveries**, whatever has been released. -/
theorem held_handled (calls : List Handling) (origin : Nat) :
    (handled calls).held origin = Handling.heldBy origin calls := by
  induction calls using List.reverseRecOn generalizing origin with
  | nil => rfl
  | append_singleton calls x ih =>
      rw [handled_concat]
      cases hx : x.delivery? with
      | none =>
          rw [held_handle_of_none (proper_handled calls) hx, Handling.heldBy_concat_of_none hx, ih]
      | some d =>
          obtain rfl := Handling.delivery?_eq_some hx
          rw [held_handle_deliver (proper_handled calls), Handling.heldBy_concat_deliver, ih, ih]

/-- **Names that are delivered first stay in front as long as they are not cut**, and their category
stays too, with all that is contributed to it. -/
theorem exists_records (hdistinct : names.Pairwise fun s t => ¬ s.agrees t = true)
    (hsome : names ≠ [])
    (huncut : Handling.Uncut names (.file (.deliver ⟨category, 0, names, none⟩) :: later)) :
    ∃ b, handled (.file (.deliver ⟨category, 0, names, none⟩) :: later) = some b ∧
      b.category = category ∧
      b.Records (.file (.deliver ⟨category, 0, names, none⟩) :: later) ∧
      names <+: Handling.heldBy 0 (.file (.deliver ⟨category, 0, names, none⟩) :: later) := by
  induction later using List.reverseRecOn with
  | nil =>
      refine ⟨_, rfl, rfl, (Bucket.records_empty category).contribute _, ?_⟩
      show names <+: Suggestion.joinDistinct [] names
      rw [Suggestion.joinDistinct_nil_of_pairwise hdistinct]
  | append_singleton before x ih =>
      obtain ⟨b, hb, hcategory, hrecords, hfront⟩ :=
        ih fun d hd => huncut d (List.mem_append_left _ hd)
      rw [← List.cons_append, handled_concat, hb]
      cases hx : x.delivery? with
      | some d =>
          obtain rfl := Handling.delivery?_eq_some hx
          refine ⟨_, rfl, hcategory, hrecords.contribute d, ?_⟩
          rw [Handling.heldBy_concat_deliver]
          split
          · rename_i horigin
            rw [horigin]
            have hjoined := hfront.trans (Suggestion.prefix_joinDistinct _ d.options)
            cases hlimit : d.limit with
            | none => exact hjoined
            | some m =>
                have hle := huncut d (List.mem_append_right (_ :: before)
                  (List.mem_singleton_self _)) horigin m hlimit
                exact List.prefix_take_iff.mpr ⟨hjoined, hle⟩
          · exact hfront
      | none =>
          have hstays : handle (some b) x = some b := by
            rcases x with (d | c) | title
            · contradiction
            · rfl
            · -- The names are held, so that there is nothing to release.
              have hproper : Proper (some b) := fun b' hb' =>
                Option.some.inj hb' ▸ hrecords.toProper
              have hheld : held (some b) 0 ≠ [] := by
                show b.held 0 ≠ []
                rw [hrecords.held_eq]
                exact fun hnil => hsome (List.prefix_nil.mp (hnil ▸ hfront))
              exact released_of_held hproper hheld
          refine ⟨b, hstays, hcategory, hrecords.of_none hx, ?_⟩
          rw [Handling.heldBy_concat_of_none hx]
          exact hfront

theorem released_eq_none_iff (h : entry.Proper) :
    entry.released = none ↔ ∀ origin, entry.held origin = [] := by
  cases entry with
  | none => exact iff_of_true rfl fun _ => rfl
  | some b =>
      refine Iff.trans ?_ (Bucket.isPlaceholder_iff (h b rfl))
      simp [released]

/-- **Nothing is left under a title just when the handlings are vacant.** -/
theorem handled_eq_none_iff (h : Handling.Filled calls) :
    handled calls = none ↔ Handling.Vacant calls := by
  induction calls using List.reverseRecOn with
  | nil => exact iff_of_true rfl ⟨by simp, by simp [Handling.lastOf]⟩
  | append_singleton before x ih =>
      have hbefore : Handling.Filled before := fun d hd => h d (List.mem_append_left _ hd)
      rw [handled_concat]
      rcases x with x | title
      · refine iff_of_false ?_ fun hvacant => hvacant.released x (by simp)
        cases x <;> exact Option.some_ne_none _
      · have hspent : (handled before).released = none ↔
            ∀ origin d, Handling.lastOf origin before = some d → d.limit = some 0 :=
          (released_eq_none_iff (proper_handled before)).trans
            (forall_congr' (held_handled_eq_nil_iff hbefore))
        refine hspent.trans ⟨fun hlimits => ⟨by simp, ?_⟩, fun hvacant => ?_⟩
        · intro origin
          rw [Handling.lastOf_concat_of_none rfl]
          exact hlimits origin
        · intro origin
          rw [← Handling.lastOf_concat_of_none (x := .release title) rfl]
          exact hvacant.spent origin

end Entry

end QueryBar
