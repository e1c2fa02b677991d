/-
What answers do to one category.

Of an answer only a few things matter to the buckets: the category it goes into, the
definition it is for, and how much of it counts.  This is its `Stake`.  An answer that
finds something contributes it to the entry of its category; one that finds nothing may
remove an entry that shows nothing.

Answers may come in any order if their stakes are `Apart` in the entry.  This is kept while
answers come in (`Apart.after`), and any two answers that are next to each other can be
exchanged under it (`after_comm`).  `Proofs/Search/Clashes.lean` has the converse: answers
that are not apart can be such that the order shows.
-/
import Mathlib.Data.List.Nodup
import QueryBar.Proofs.Buckets.Held

namespace QueryBar

/-- Where an answer goes, and how much of it counts at most. -/
structure Stake where
  category : Category
  origin : Nat
  limit : Nat
  deriving DecidableEq

/-- What stands under a title. -/
abbrev Entry := Option Bucket

namespace Entry

/-- The bucket that a contribution to the category goes into, a new one if there is none. -/
def opened (entry : Entry) (c : Category) : Bucket := entry.getD (.empty c)

/-- What a definition holds. -/
def held (entry : Entry) (origin : Nat) : List Suggestion :=
  (entry.map (·.held origin)).getD []

/-- The entry, unless it shows nothing. -/
def released (entry : Entry) : Entry := entry.filter (!·.isPlaceholder)

/-- The entry after an answer. -/
def after (entry : Entry) (releases : Bool) (k : Stake) (options : List Suggestion) : Entry :=
  if options.isEmpty then if releases then entry.released else entry
  else some ((entry.opened k.category).contribute k.origin options (some k.limit))

/-- The entry after all answers of a list. -/
def afterAll (entry : Entry) (releases : Bool) (given : List (Stake × List Suggestion)) : Entry :=
  given.foldl (fun entry (k, options) => entry.after releases k options) entry

/-- Whatever the others answer, the entry still shows something when an empty answer comes. -/
def Outlasts (entry : Entry) (ks : List Stake) (k : Stake) : Prop :=
  ∃ origin, entry.held origin ≠ [] ∧ ∀ k' ∈ ks, k' ≠ k → k'.limit = 0 → k'.origin ≠ origin

/-- Answers with the given stakes do not get in each other's way. -/
structure Apart (entry : Entry) (releases : Bool) (ks : List Stake) : Prop where
  /-- No two of them contribute for one definition, unless that has its fill. -/
  places : ∀ k ∈ ks, ∀ k' ∈ ks, k ≠ k' → k.origin = k'.origin →
    k.limit = k'.limit ∧ k.limit ≤ (entry.held k.origin).length
  /-- Whichever comes first, it goes into the same bucket. -/
  category : ∀ k ∈ ks, ∀ k' ∈ ks, entry.opened k.category = entry.opened k'.category
  /-- If the first is empty it removes nothing that the second would not make anew. -/
  removal : releases = true → ∀ k ∈ ks, ∀ k' ∈ ks, k ≠ k' →
    entry.Outlasts ks k ∨ entry.opened k'.category = .empty k'.category ∧ k'.limit ≠ 0

/-- The bucket of the entry is a proper one. -/
def Proper (entry : Entry) : Prop := ∀ b, entry = some b → b.Proper

variable {entry : Entry} {releases : Bool} {ks : List Stake} {k k' : Stake} {origin : Nat}
  {options options' : List Suggestion} {category : Category}

/-! ### Reading an entry -/

theorem held_opened (entry : Entry) (category : Category) (origin : Nat) :
    (entry.opened category).held origin = entry.held origin := by
  cases entry <;> rfl

theorem Proper.opened (h : entry.Proper) (category : Category) :
    (entry.opened category).Proper := by
  cases entry with
  | none => exact Bucket.proper_empty category
  | some b => exact h b rfl

theorem released_of_held (h : entry.Proper) (hheld : entry.held origin ≠ []) :
    entry.released = entry := by
  cases entry with
  | none => rfl
  | some b =>
      have hseen := Bucket.isPlaceholder_of_held (h b rfl) hheld
      simp [released, hseen]

/-- Either an entry is not removed, or nothing is held in it. -/
theorem released_eq_or (h : entry.Proper) :
    entry.released = entry ∨ entry.released = none ∧ ∀ origin, entry.held origin = [] := by
  cases entry with
  | none => exact Or.inl rfl
  | some b =>
      cases hb : b.isPlaceholder with
      | false => exact Or.inl (by simp [released, hb])
      | true =>
          have hgone : released (some b) = none := by simp [released, hb]
          exact Or.inr ⟨hgone, (Bucket.isPlaceholder_iff (h b rfl)).mp hb⟩

theorem Proper.released (h : entry.Proper) : entry.released.Proper := by
  intro b hb
  exact h b (Option.filter_eq_some_iff.mp hb).1

theorem held_released (h : entry.Proper) (origin : Nat) :
    entry.released.held origin = entry.held origin := by
  rcases released_eq_or h with hsame | ⟨hgone, hnone⟩
  · rw [hsame]
  · rw [hgone, hnone]
    rfl

/-- Where a new bucket would be the same, a removal makes no difference to a contribution. -/
theorem opened_released (h : entry.opened category = .empty category) :
    entry.released.opened category = entry.opened category := by
  rw [h]
  cases entry with
  | none => rfl
  | some b =>
      have hb : b = .empty category := h
      unfold released opened
      rw [Option.filter_some]
      split
      · exact hb
      · rfl

/-! ### One answer -/

theorem after_of_empty (releases : Bool) (k : Stake) :
    entry.after releases k [] = if releases then entry.released else entry := rfl

theorem after_of_ne_nil (releases : Bool) (k : Stake) (hoptions : options ≠ []) :
    entry.after releases k options
      = some ((entry.opened k.category).contribute k.origin options (some k.limit)) :=
  if_neg (by simpa using hoptions)

theorem Proper.after (h : entry.Proper) (releases : Bool) (k : Stake)
    (options : List Suggestion) : (entry.after releases k options).Proper := by
  by_cases hoptions : options = []
  · subst hoptions
    rw [after_of_empty]
    split
    · exact h.released
    · exact h
  · rw [after_of_ne_nil releases k hoptions]
    intro b hb
    obtain rfl := Option.some.inj hb
    exact (h.opened k.category).contribute ..

/-- An answer that finds something changes what its definition holds. -/
theorem held_after (h : entry.Proper) (releases : Bool) (k : Stake) (hoptions : options ≠ [])
    (origin : Nat) :
    (entry.after releases k options).held origin
      = if k.origin = origin then
          capped (some k.limit) (Suggestion.joinDistinct (entry.held k.origin) options)
        else entry.held origin := by
  rw [after_of_ne_nil releases k hoptions]
  show ((entry.opened k.category).contribute k.origin options (some k.limit)).held origin = _
  rw [Bucket.held_contribute (h.opened k.category), held_opened, held_opened]

/-- If its limit is not nought, its definition holds something then. -/
theorem held_after_ne_nil (h : entry.Proper) (releases : Bool) (hoptions : options ≠ [])
    (hlimit : k.limit ≠ 0) : (entry.after releases k options).held k.origin ≠ [] := by
  rw [held_after h releases k hoptions, if_pos rfl]
  exact capped_ne_nil (by simpa using hlimit) (Suggestion.joinDistinct_ne_nil (Or.inr hoptions))

/-- What no other answer can take away is still there after one of them. -/
theorem Outlasts.after (hlasts : entry.Outlasts ks k) (h : entry.Proper) (hk : k' ∈ ks)
    (hne : k' ≠ k) (releases : Bool) (options : List Suggestion) :
    (entry.after releases k' options).Outlasts ks k := by
  obtain ⟨origin, hheld, hspared⟩ := hlasts
  refine ⟨origin, ?_, hspared⟩
  by_cases hoptions : options = []
  · subst hoptions
    rw [after_of_empty]
    split
    · rw [held_released h]
      exact hheld
    · exact hheld
  · rw [held_after h releases k' hoptions]
    split
    · rename_i horigin
      have hlimit : k'.limit ≠ 0 := fun hzero => hspared k' hk hne hzero horigin
      exact capped_ne_nil (by simpa using hlimit)
        (Suggestion.joinDistinct_ne_nil (Or.inr hoptions))
    · exact hheld

theorem Outlasts.of_subset {ks' : List Stake} (hlasts : entry.Outlasts ks k) (hsub : ks' ⊆ ks) :
    entry.Outlasts ks' k := by
  obtain ⟨origin, hheld, hspared⟩ := hlasts
  exact ⟨origin, hheld, fun k' hk' => hspared k' (hsub hk')⟩

/-! ### Two answers -/

/-- An empty answer and one that finds something can be exchanged, if the empty one removes nothing
that the other would not make anew. -/
private theorem after_comm_of_empty (h : entry.Proper) (hk' : k' ∈ ks) (hne : k ≠ k')
    (hremoval : releases = true →
      entry.Outlasts ks k ∨ entry.opened k'.category = .empty k'.category ∧ k'.limit ≠ 0)
    (hoptions' : options' ≠ []) :
    (entry.after releases k []).after releases k' options'
      = (entry.after releases k' options').after releases k [] := by
  rw [after_of_empty, after_of_empty]
  cases releases with
  | false => rfl
  | true =>
      have hafter := h.after true k' options'
      show entry.released.after true k' options' = (entry.after true k' options').released
      rcases hremoval rfl with hlasts | ⟨hvacant, hlimit⟩
      · obtain ⟨_, hstill, -⟩ := hlasts.after h hk' hne.symm true options'
        obtain ⟨_, hheld, -⟩ := hlasts
        rw [released_of_held h hheld, released_of_held hafter hstill]
      · rw [released_of_held hafter (held_after_ne_nil h true hoptions' hlimit),
          after_of_ne_nil true k' hoptions', after_of_ne_nil true k' hoptions',
          opened_released hvacant]

/-- **Two answers that are apart can be exchanged.** -/
theorem after_comm (h : entry.Proper) (hapart : entry.Apart releases ks) (hk : k ∈ ks)
    (hk' : k' ∈ ks) (hne : k ≠ k') (options options' : List Suggestion) :
    (entry.after releases k options).after releases k' options'
      = (entry.after releases k' options').after releases k options := by
  by_cases hoptions : options = []
  · subst hoptions
    by_cases hoptions' : options' = []
    · subst hoptions'
      rfl
    · exact after_comm_of_empty h hk' hne (fun hr => hapart.removal hr k hk k' hk' hne) hoptions'
  · by_cases hoptions' : options' = []
    · subst hoptions'
      exact (after_comm_of_empty h hk hne.symm
        (fun hr => hapart.removal hr k' hk' k hk hne.symm) hoptions).symm
    · rw [after_of_ne_nil releases k hoptions, after_of_ne_nil releases k' hoptions',
        after_of_ne_nil releases k' hoptions', after_of_ne_nil releases k hoptions,
        hapart.category k hk k' hk']
      refine congrArg some ?_
      show Bucket.contribute (Bucket.contribute _ ..) .. = _
      by_cases horigin : k.origin = k'.origin
      · obtain ⟨hlimit, hfull⟩ := hapart.places k hk k' hk' hne horigin
        rw [← held_opened entry k'.category] at hfull
        have hcomm := Bucket.contribute_comm_of_full (h.opened k'.category) hfull options' options
        rw [← horigin, ← hlimit]
        exact hcomm
      · exact Bucket.contribute_comm (Ne.symm horigin) _

/-! ### Any number of answers -/

theorem Apart.of_subset {ks' : List Stake} (hapart : entry.Apart releases ks) (hsub : ks' ⊆ ks) :
    entry.Apart releases ks' where
  places k hk k' hk' := hapart.places k (hsub hk) k' (hsub hk')
  category k hk k' hk' := hapart.category k (hsub hk) k' (hsub hk')
  removal hr k hk k' hk' hne :=
    (hapart.removal hr k (hsub hk) k' (hsub hk') hne).imp_left (·.of_subset hsub)

/-- **Once one of the answers has come in, the others are apart in what it has left.** -/
theorem Apart.after (h : entry.Proper) (hapart : entry.Apart releases (k :: ks)) (hnew : k ∉ ks)
    (options : List Suggestion) : (entry.after releases k options).Apart releases ks := by
  have hsub : ks ⊆ k :: ks := List.subset_cons_self k ks
  have hfirst : k ∈ k :: ks := List.mem_cons_self
  have hne : ∀ k' ∈ ks, k ≠ k' := fun k' hk' heq => hnew (heq ▸ hk')
  refine ⟨?_, ?_, ?_⟩
  · intro k₁ hk₁ k₂ hk₂ hne₂ horigin
    obtain ⟨hlimit, hfull⟩ := hapart.places k₁ (hsub hk₁) k₂ (hsub hk₂) hne₂ horigin
    refine ⟨hlimit, ?_⟩
    by_cases hoptions : options = []
    · subst hoptions
      rw [after_of_empty]
      split
      · rw [held_released h]
        exact hfull
      · exact hfull
    · rw [held_after h releases k hoptions]
      split
      · rename_i hplace
        obtain ⟨hlimit₁, hfull₁⟩ := hapart.places k hfirst k₁ (hsub hk₁) (hne k₁ hk₁) hplace
        rw [← hlimit₁]
        exact Contribution.le_length_capped options hfull₁
      · exact hfull
  · intro k₁ hk₁ k₂ hk₂
    have hsame := hapart.category k₁ (hsub hk₁) k₂ (hsub hk₂)
    by_cases hoptions : options = []
    · subst hoptions
      rw [after_of_empty]
      split
      · rename_i hr
        rcases released_eq_or h with hkept | ⟨-, hnone⟩
        · rw [hkept]
          exact hsame
        · -- The entry shows nothing, so what is left counts on nothing in it.
          have hvacant : ∀ k' ∈ ks, entry.opened k'.category = .empty k'.category := by
            intro k' hk'
            rcases hapart.removal hr k hfirst k' (hsub hk') (hne k' hk') with hlasts | hvacant
            · obtain ⟨origin, hheld, -⟩ := hlasts
              exact absurd (hnone origin) hheld
            · exact hvacant.1
          rw [opened_released (hvacant k₁ hk₁), opened_released (hvacant k₂ hk₂)]
          exact hsame
      · exact hsame
    · rw [after_of_ne_nil releases k hoptions]
      rfl
  · intro hr k₁ hk₁ k₂ hk₂ hne₂
    by_cases hlasts : entry.Outlasts (k :: ks) k₁
    · exact Or.inl ((hlasts.after h hfirst (hne k₁ hk₁) releases options).of_subset hsub)
    · have hother : ∀ k' ∈ k :: ks, k' ≠ k₁ →
          entry.opened k'.category = .empty k'.category ∧ k'.limit ≠ 0 := by
        intro k' hk' hne'
        exact (hapart.removal hr k₁ (hsub hk₁) k' hk' hne'.symm).resolve_left hlasts
      by_cases hoptions : options = []
      · subst hoptions
        obtain ⟨hvacant, hlimit⟩ := hother k₂ (hsub hk₂) hne₂.symm
        rw [after_of_empty, if_pos hr, opened_released hvacant]
        exact Or.inr ⟨hvacant, hlimit⟩
      · have hlimit := (hother k hfirst (hne k₁ hk₁)).2
        refine Or.inl ⟨k.origin, held_after_ne_nil h releases hoptions hlimit, ?_⟩
        intro k' hk' hne' hzero
        exact absurd hzero (hother k' (hsub hk') hne').2

/-- **Answers that are apart come to the same in any order.** -/
theorem afterAll_perm {given given' : List (Stake × List Suggestion)}
    (hperm : given.Perm given') (h : entry.Proper) (hdistinct : (given.map Prod.fst).Nodup)
    (hapart : entry.Apart releases (given.map Prod.fst)) :
    entry.afterAll releases given = entry.afterAll releases given' := by
  induction hperm generalizing entry with
  | nil => rfl
  | cons p _ ih =>
      rw [List.map_cons, List.nodup_cons] at hdistinct
      have hafter : (entry.after releases p.1 p.2).Proper := h.after releases p.1 p.2
      exact ih hafter hdistinct.2 (hapart.after h hdistinct.1 p.2)
  | swap p p' rest =>
      rw [List.map_cons, List.map_cons, List.nodup_cons] at hdistinct
      have hne : p'.1 ≠ p.1 := fun heq => hdistinct.1 (by simp [heq])
      have hcomm := after_comm h hapart (by simp) (by simp) hne p'.2 p.2
      show afterAll ((entry.after releases p'.1 p'.2).after releases p.1 p.2) releases rest = _
      rw [hcomm]
      rfl
  | trans hfirst _ ih ih' =>
      have hstakes := hfirst.map Prod.fst
      exact (ih h hdistinct hapart).trans
        (ih' h (hstakes.nodup_iff.mp hdistinct) (hapart.of_subset hstakes.symm.subset))

end Entry

end QueryBar
