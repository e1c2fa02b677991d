/-
Answers that clash.

That answers are `Entry.Apart` is not only enough for them to come in any order; it takes
no less.  An entry is `Indifferent` to the order if any two orders leave the same, whatever
texts are answered, and each part of `Apart` is read off that with answers of a text or two
and two orders that would tell them apart:

* the category, where nothing stands yet, with a text for every answer and either of two
  answers first;
* the removal, with texts for the lists of limit nought, or for one list, and empty answers
  before or after them;
* the places, with two new texts for one definition, in either order.
-/
import Mathlib.Data.Fintype.EquivFin
import QueryBar.Proofs.Buckets.Order
import QueryBar.Proofs.Search.Stakes

namespace QueryBar

/-- An answer of texts, from a source of the given name. -/
def Stake.ofTexts (name : Stake → String) (texts : Stake → List String) (k : Stake) :
    Stake × List Suggestion :=
  (k, (texts k).map fun u => ⟨name k, .text u, u⟩)

namespace Entry

/-- Whatever texts are answered, all orders of the answers leave the same. -/
def Indifferent (entry : Entry) (releases : Bool) (ks : List Stake) (name : Stake → String) :
    Prop :=
  ∀ (texts : Stake → List String) (ks₁ ks₂ : List Stake), ks₁.Perm ks → ks₂.Perm ks →
    entry.afterAll releases (ks₁.map (Stake.ofTexts name texts))
      = entry.afterAll releases (ks₂.map (Stake.ofTexts name texts))

variable {entry : Entry} {releases : Bool} {ks : List Stake} {name : Stake → String}
  {k k' : Stake} {origin : Nat} {given : List (Stake × List Suggestion)} {b : Bucket}

/-! ### Answers of one kind -/

theorem afterAll_append (given more : List (Stake × List Suggestion)) :
    entry.afterAll releases (given ++ more)
      = (entry.afterAll releases given).afterAll releases more :=
  List.foldl_append

theorem Proper.afterAll (h : entry.Proper) (releases : Bool)
    (given : List (Stake × List Suggestion)) : (entry.afterAll releases given).Proper := by
  induction given generalizing entry with
  | nil => exact h
  | cons p rest ih =>
      have hafter : (entry.after releases p.1 p.2).Proper := h.after releases p.1 p.2
      exact ih hafter

theorem released_released (entry : Entry) : entry.released.released = entry.released := by
  simp [released]

theorem released_of_blank (h : entry.Proper) (hblank : ∀ origin, entry.held origin = []) :
    entry.released = none := by
  cases entry with
  | none => rfl
  | some b =>
      have hempty := (Bucket.isPlaceholder_iff (h b rfl)).mpr hblank
      simp [released, hempty]

/-- Empty answers release the entry, and that is all. -/
theorem afterAll_of_empty (hempty : ∀ p ∈ given, p.2 = []) :
    entry.afterAll releases given
      = if releases = true ∧ given ≠ [] then entry.released else entry := by
  induction given generalizing entry with
  | nil => simp [afterAll]
  | cons p rest ih =>
      have hfirst : entry.after releases p.1 p.2 = if releases then entry.released else entry := by
        rw [hempty p (by simp)]
        rfl
      show (entry.after releases p.1 p.2).afterAll releases rest = _
      rw [ih fun q hq => hempty q (by simp [hq]), hfirst]
      cases releases <;> simp [released_released]

theorem held_afterAll_of_empty (h : entry.Proper) (hempty : ∀ p ∈ given, p.2 = [])
    (origin : Nat) : (entry.afterAll releases given).held origin = entry.held origin := by
  rw [afterAll_of_empty hempty]
  split
  · exact held_released h origin
  · rfl

/-- Answers that find something leave the category in which they come. -/
theorem exists_afterAll (hfound : ∀ p ∈ given, p.2 ≠ []) :
    ∃ b', afterAll (some b) releases given = some b' ∧ b'.category = b.category := by
  induction given generalizing b with
  | nil => exact ⟨b, rfl, rfl⟩
  | cons p rest ih =>
      obtain ⟨b', hafter, hcategory⟩ :=
        ih (b := b.contribute p.1.origin p.2 (some p.1.limit)) fun q hq => hfound q (by simp [hq])
      refine ⟨b', ?_, hcategory⟩
      rw [← hafter]
      show (after (some b) releases p.1 p.2).afterAll releases rest = _
      rw [after_of_ne_nil releases p.1 (hfound p (by simp))]
      rfl

/-- Under a limit of nought, answers take away what is held. -/
theorem held_afterAll_of_nought (h : entry.Proper)
    (hnought : ∀ p ∈ given, p.2 ≠ [] ∧ p.1.limit = 0)
    (hgone : entry.held origin = [] ∨ ∃ p ∈ given, p.1.origin = origin) :
    (entry.afterAll releases given).held origin = [] := by
  induction given generalizing entry with
  | nil => exact hgone.resolve_right (by simp)
  | cons p rest ih =>
      obtain ⟨hfound, hlimit⟩ := hnought p (by simp)
      have hafter : (entry.after releases p.1 p.2).Proper := h.after releases p.1 p.2
      refine ih hafter (fun q hq => hnought q (by simp [hq])) ?_
      rw [held_after h releases p.1 hfound, hlimit]
      by_cases hplace : p.1.origin = origin
      · exact Or.inl (if_pos hplace)
      · rw [if_neg hplace]
        refine hgone.imp_right ?_
        rintro ⟨q, hq, horigin⟩
        rcases List.mem_cons.mp hq with rfl | hq
        · exact absurd horigin hplace
        · exact ⟨q, hq, horigin⟩

/-! ### The category -/

/-- Whichever answer is the first, the bucket that it goes into is the same. -/
theorem Indifferent.category (hsame : entry.Indifferent releases ks name) (hk : k ∈ ks)
    (hk' : k' ∈ ks) : entry.opened k.category = entry.opened k'.category := by
  cases entry with
  | some b => rfl
  | none =>
      have hfirst : ∀ j ∈ ks, ∃ b, afterAll none releases
          ((j :: ks.erase j).map (Stake.ofTexts name fun _ => ["x"])) = some b ∧
            b.category = j.category := by
        intro j _
        have hfound : ∀ p ∈ (ks.erase j).map (Stake.ofTexts name fun _ => ["x"]), p.2 ≠ [] := by
          intro p hp
          obtain ⟨i, -, rfl⟩ := List.mem_map.mp hp
          simp [Stake.ofTexts]
        exact exists_afterAll (b := (Bucket.empty j.category).contribute j.origin _ _) hfound
      obtain ⟨b, hb, hcategory⟩ := hfirst k hk
      obtain ⟨b', hb', hcategory'⟩ := hfirst k' hk'
      have heq := hsame (fun _ => ["x"]) _ _ (List.perm_cons_erase hk).symm
        (List.perm_cons_erase hk').symm
      rw [hb, hb'] at heq
      rw [← hcategory, ← hcategory', Option.some.inj heq]

/-! ### The removal -/

/-- The answers other than one, if all of them are empty. -/
private theorem empty_erase (hdistinct : ks.Nodup) {texts : Stake → List String}
    (htexts : ∀ j, j ≠ k → texts j = []) :
    ∀ p ∈ (ks.erase k).map (Stake.ofTexts name texts), p.2 = [] := by
  intro p hp
  obtain ⟨j, hj, rfl⟩ := List.mem_map.mp hp
  have hne : j ≠ k := (hdistinct.mem_erase_iff.mp hj).1
  simp [Stake.ofTexts, htexts j hne]

/-- Where nothing is held, an answer finds the bucket as it would make it anew, but for other
contributions of its own definition, and its limit is not nought. -/
private theorem Indifferent.vacant (hsame : entry.Indifferent true ks name) (h : entry.Proper)
    (hdistinct : ks.Nodup) (hblank : ∀ origin, entry.held origin = []) (hk : k ∈ ks)
    (hk' : k' ∈ ks) (hne : k ≠ k') :
    k'.limit ≠ 0 ∧ (entry.opened k'.category).category = k'.category ∧
      ∀ d ∈ (entry.opened k'.category).contributions, d.origin = k'.origin := by
  -- Only `k'` finds something: a text, before or after all the empty answers.
  let texts : Stake → List String := fun j => if j = k' then ["x"] else []
  let found : List Suggestion := [⟨name k', .text "x", "x"⟩]
  have hfound : found ≠ [] := by simp [found]
  have hgiven : Stake.ofTexts name texts k' = (k', found) := by simp [Stake.ofTexts, texts, found]
  have hempty : ∀ p ∈ (ks.erase k').map (Stake.ofTexts name texts), p.2 = [] :=
    empty_erase hdistinct (by intro j hj; simp [texts, hj])
  have hothers : (ks.erase k').map (Stake.ofTexts name texts) ≠ [] := by
    intro hnil
    have hmem : k ∈ ks.erase k' := (List.mem_erase_of_ne hne).mpr hk
    rw [List.map_eq_nil_iff.mp hnil] at hmem
    simp at hmem
  have hreleased := released_of_blank h hblank
  have hperm := List.perm_cons_erase hk'
  have heq := hsame texts (ks.erase k' ++ [k']) (k' :: ks.erase k')
    ((List.perm_append_singleton ..).trans hperm.symm) hperm.symm
  have hlast : entry.afterAll true ((ks.erase k' ++ [k']).map (Stake.ofTexts name texts))
      = some ((Bucket.empty k'.category).contribute k'.origin found (some k'.limit)) := by
    rw [List.map_append, afterAll_append, afterAll_of_empty hempty, if_pos ⟨rfl, hothers⟩,
      hreleased, List.map_singleton, hgiven]
    exact after_of_ne_nil true k' hfound
  have hfirst : entry.afterAll true ((k' :: ks.erase k').map (Stake.ofTexts name texts))
      = (entry.after true k' found).released := by
    rw [List.map_cons, hgiven]
    show (entry.after true k' found).afterAll true _ = _
    rw [afterAll_of_empty hempty, if_pos ⟨rfl, hothers⟩]
  rw [hlast, hfirst, after_of_ne_nil true k' hfound] at heq
  obtain ⟨hbucket, hseen⟩ := Option.filter_eq_some_iff.mp heq.symm
  have hbucket := Option.some.inj hbucket
  refine ⟨?_, ?_, ?_⟩
  · intro hzero
    have hproper := Bucket.proper_empty k'.category
    have hempty : ((Bucket.empty k'.category).contribute k'.origin found
        (some k'.limit)).isPlaceholder = true := by
      refine (Bucket.isPlaceholder_iff (hproper.contribute ..)).mpr ?_
      intro origin
      rw [Bucket.held_contribute hproper, hzero]
      split <;> rfl
    rw [hempty] at hseen
    simp at hseen
  · exact congrArg Bucket.category hbucket
  · intro d hd
    have hcontributions : Contribution.insert k'.origin found (some k'.limit)
        (entry.opened k'.category).contributions
          = [.after [] k'.origin found (some k'.limit)] := congrArg Bucket.contributions hbucket
    obtain ⟨d', hd', horigin⟩ := Contribution.exists_origin_insert k'.origin found
      (some k'.limit) hd
    rw [hcontributions, List.mem_singleton] at hd'
    rw [← horigin, hd']
    rfl

/-- The lists with a limit of nought, one answer apart, find something if they are given texts. -/
theorem of_mem_nought (hdistinct : ks.Nodup) {texts : Stake → List String}
    (htexts : ∀ j, j ≠ k → j.limit = 0 → texts j ≠ []) :
    ∀ p ∈ ((ks.erase k).filter (·.limit == 0)).map (Stake.ofTexts name texts),
      p.2 ≠ [] ∧ p.1.limit = 0 := by
  intro p hp
  obtain ⟨j, hj, rfl⟩ := List.mem_map.mp hp
  obtain ⟨hmem, hzero⟩ := List.mem_filter.mp hj
  have hne : j ≠ k := (hdistinct.mem_erase_iff.mp hmem).1
  have hzero : j.limit = 0 := by simpa using hzero
  exact ⟨by simpa [Stake.ofTexts] using htexts j hne hzero, hzero⟩

/-- **What need not outlast the others is taken away by the lists with a limit of nought.** -/
theorem held_afterAll_nought (h : entry.Proper) (hdistinct : ks.Nodup)
    (hnot : ¬ entry.Outlasts ks k) {texts : Stake → List String}
    (htexts : ∀ j, j ≠ k → j.limit = 0 → texts j ≠ []) (releases : Bool) (origin : Nat) :
    (entry.afterAll releases (((ks.erase k).filter (·.limit == 0)).map
      (Stake.ofTexts name texts))).held origin = [] := by
  refine held_afterAll_of_nought h (of_mem_nought hdistinct htexts) ?_
  by_cases hheld : entry.held origin = []
  · exact Or.inl hheld
  · refine Or.inr ?_
    by_contra hnone
    refine hnot ⟨origin, hheld, fun j hj hne hzero horigin => hnone ?_⟩
    have hmem : j ∈ (ks.erase k).filter (·.limit == 0) :=
      List.mem_filter.mpr ⟨(List.mem_erase_of_ne hne).mpr hj, by simp [hzero]⟩
    exact ⟨_, List.mem_map_of_mem hmem, horigin⟩

/-- Where something is held, some of it stays whatever the others answer. -/
private theorem Indifferent.outlasts (hsame : entry.Indifferent true ks name) (h : entry.Proper)
    (hdistinct : ks.Nodup) {seen : Nat} (hseen : entry.held seen ≠ []) (hk : k ∈ ks) :
    entry.Outlasts ks k := by
  by_contra hnot
  -- All lists of limit nought find something, and `k` comes after them or before them.
  let texts : Stake → List String := fun j => if j ≠ k ∧ j.limit = 0 then ["x"] else []
  let nought := (ks.erase k).filter (·.limit == 0)
  let others := (ks.erase k).filter (!·.limit == 0)
  have htexts : ∀ j, j ≠ k → j.limit = 0 → texts j ≠ [] := by
    intro j hne hzero
    simp [texts, hne, hzero]
  have hothers : ∀ p ∈ others.map (Stake.ofTexts name texts), p.2 = [] := by
    intro p hp
    obtain ⟨j, hj, rfl⟩ := List.mem_map.mp hp
    have hlimit : j.limit ≠ 0 := by simpa using (List.mem_filter.mp hj).2
    simp [Stake.ofTexts, texts, hlimit]
  have hself : Stake.ofTexts name texts k = (k, []) := by simp [Stake.ofTexts, texts]
  have hkept : ∀ {given : List (Stake × List Suggestion)}, (∀ p ∈ given, p.2 = []) →
      entry.afterAll true given = entry := by
    intro given hempty
    rw [afterAll_of_empty hempty, released_of_held h hseen, ite_self]
  have hperm : (others ++ nought).Perm (ks.erase k) :=
    (List.perm_append_comm).trans (List.filter_append_perm ..)
  have hfirst : (k :: (others ++ nought)).Perm ks :=
    (hperm.cons k).trans (List.perm_cons_erase hk).symm
  have hlast : (others ++ nought ++ [k]).Perm ks :=
    (List.perm_append_singleton ..).trans hfirst
  have heq := hsame texts _ _ hlast hfirst
  set left := entry.afterAll true (nought.map (Stake.ofTexts name texts)) with hleft
  have hblank : ∀ origin, left.held origin = [] :=
    held_afterAll_nought h hdistinct hnot htexts true
  have hsome : left ≠ none := by
    cases entry with
    | none => exact absurd rfl hseen
    | some b =>
        obtain ⟨b', hb', -⟩ : ∃ b', left = some b' ∧ b'.category = b.category :=
          exists_afterAll fun p hp => (of_mem_nought hdistinct htexts p hp).1
        rw [hb']
        simp
  rw [List.map_append, List.map_append, afterAll_append, afterAll_append, hkept hothers, ← hleft,
    List.map_singleton, hself, List.map_cons, List.map_append, hself,
    ← List.cons_append, afterAll_append, hkept (by simpa using hothers), ← hleft] at heq
  have hgone : left.released = left := heq
  rw [released_of_blank (h.afterAll true _) hblank] at hgone
  exact hsome hgone.symm

/-- **If the order never shows, an empty answer removes nothing that another would not make
anew.** -/
theorem Indifferent.removal (hsame : entry.Indifferent true ks name) (h : entry.Proper)
    (hdistinct : ks.Nodup)
    (hplaced : ∀ k ∈ ks, ∀ k' ∈ ks, k.category = k'.category → k.origin = k'.origin → k = k')
    (hk : k ∈ ks) (hk' : k' ∈ ks) (hne : k ≠ k') :
    entry.Outlasts ks k ∨ entry.opened k'.category = .empty k'.category ∧ k'.limit ≠ 0 := by
  by_cases hseen : ∃ origin, entry.held origin ≠ []
  · obtain ⟨origin, hheld⟩ := hseen
    exact Or.inl (hsame.outlasts h hdistinct hheld hk)
  · have hblank : ∀ origin, entry.held origin = [] := by simpa using hseen
    obtain ⟨-, hcategory, horigin⟩ := hsame.vacant h hdistinct hblank hk' hk hne.symm
    obtain ⟨hlimit, hcategory', horigin'⟩ := hsame.vacant h hdistinct hblank hk hk' hne
    have hopened := hsame.category hk hk'
    refine Or.inr ⟨?_, hlimit⟩
    have hnone : (entry.opened k'.category).contributions = [] := by
      refine List.eq_nil_iff_forall_not_mem.mpr ?_
      intro d hd
      -- A contribution would be of the definitions of both answers, which are different.
      refine hne (hplaced k hk k' hk' ?_ ?_)
      · rw [← hcategory, ← hcategory', hopened]
      · rw [← horigin d (hopened ▸ hd), ← horigin' d hd]
    generalize entry.opened k'.category = b at hcategory' hnone
    obtain ⟨title, rank, contributions⟩ := b
    subst hnone
    rw [← hcategory']
    rfl

/-! ### The places -/

/-- There are two texts that nothing among the suggestions stands for. -/
private theorem exists_new_texts (options : List Suggestion) :
    ∃ u v : String, u ≠ v ∧ ∀ s ∈ options, s.value ≠ .text u ∧ s.value ≠ .text v := by
  let taken := (options.filterMap (·.value.asText?)).toFinset
  obtain ⟨u, hu⟩ := Infinite.exists_notMem_finset taken
  obtain ⟨v, hv⟩ := Infinite.exists_notMem_finset (insert u taken)
  rw [Finset.mem_insert, not_or] at hv
  have hnew : ∀ w, w ∉ taken → ∀ s ∈ options, s.value ≠ .text w := by
    intro w hw s hs hvalue
    refine hw (List.mem_toFinset.mpr (List.mem_filterMap.mpr ⟨s, hs, ?_⟩))
    rw [hvalue]
    rfl
  exact ⟨u, v, fun heq => hv.1 heq.symm, fun s hs => ⟨hnew u hu s hs, hnew v hv.2 s hs⟩⟩

/-- A suggestion of a new text is joined at the end. -/
private theorem joinDistinct_of_new {options : List Suggestion} {source u text : String}
    (hnew : ∀ s ∈ options, s.value ≠ .text u) :
    Suggestion.joinDistinct options [⟨source, .text u, text⟩]
      = options ++ [⟨source, .text u, text⟩] := by
  refine if_neg ?_
  intro hany
  obtain ⟨s, hs, hagrees⟩ := List.any_eq_true.mp hany
  refine hnew s hs ?_
  cases hvalue : s.value with
  | text w =>
      have hw : w = u := by simpa [Suggestion.agrees, Value.agrees, hvalue] using hagrees
      rw [hw]
  | number x => simp [Suggestion.agrees, Value.agrees, hvalue] at hagrees
  | date d => simp [Suggestion.agrees, Value.agrees, hvalue] at hagrees

/-- Two cuts of two additions that come to the same in either order leave no room for them. -/
private theorem full_of_cut_eq {options : List Suggestion} {s s' : Suggestion} {n n' : Nat}
    (hne : s ≠ s')
    (heq : ((options ++ [s]).take n ++ [s']).take n' = ((options ++ [s']).take n' ++ [s]).take n) :
    n = n' ∧ n ≤ options.length := by
  by_cases hroom : options.length < n ∧ options.length < n'
  · obtain ⟨hn, hn'⟩ := hroom
    have hall : ∀ (t : Suggestion) (m : Nat), options.length < m →
        (options ++ [t]).take m = options ++ [t] := by
      intro t m hm
      exact List.take_of_length_le (by rw [List.length_append]; exact hm)
    have hnext : ∀ t t' : Suggestion, (options ++ [t] ++ [t'])[options.length]? = some t := by
      intro t t'
      rw [List.append_assoc, List.getElem?_append_right (Nat.le_refl _), Nat.sub_self]
      rfl
    have hget := congrArg (·[options.length]?) heq
    rw [hall s n hn, hall s' n' hn', List.getElem?_take_of_lt hn', List.getElem?_take_of_lt hn,
      hnext, hnext] at hget
    exact absurd (Option.some.inj hget) hne
  · have hlength := congrArg List.length heq
    simp only [List.length_take, List.length_append, List.length_singleton] at hlength
    omega

/-- What two answers for one definition leave there. -/
private theorem held_after_twice (h : entry.Proper) (releases : Bool) (horigin : k.origin = k'.origin)
    {options options' : List Suggestion} (hoptions : options ≠ []) (hoptions' : options' ≠ []) :
    ((entry.after releases k options).after releases k' options').held k.origin
      = capped (some k'.limit) (Suggestion.joinDistinct
          (capped (some k.limit) (Suggestion.joinDistinct (entry.held k.origin) options))
          options') := by
  have hafter : (entry.after releases k options).Proper := h.after releases k options
  rw [held_after hafter releases k' hoptions', if_pos horigin.symm, ← horigin,
    held_after h releases k hoptions, if_pos rfl]

/-- **If the order never shows, no two answers compete for the place of one definition.** -/
theorem Indifferent.places (hsame : entry.Indifferent releases ks name) (h : entry.Proper)
    (hdistinct : ks.Nodup) (hk : k ∈ ks) (hk' : k' ∈ ks) (hne : k ≠ k')
    (horigin : k.origin = k'.origin) :
    k.limit = k'.limit ∧ k.limit ≤ (entry.held k.origin).length := by
  obtain ⟨u, v, huv, hnew⟩ := exists_new_texts (entry.held k.origin)
  -- The two find a new text each, when all others have found nothing.
  let texts : Stake → List String :=
    fun j => if j = k then [u] else if j = k' then [v] else []
  let s : Suggestion := ⟨name k, .text u, u⟩
  let s' : Suggestion := ⟨name k', .text v, v⟩
  have hgiven : Stake.ofTexts name texts k = (k, [s]) := by simp [Stake.ofTexts, texts, s]
  have hgiven' : Stake.ofTexts name texts k' = (k', [s']) := by
    simp [Stake.ofTexts, texts, s', hne.symm]
  let others := (ks.erase k).erase k'
  have hempty : ∀ p ∈ others.map (Stake.ofTexts name texts), p.2 = [] := by
    intro p hp
    obtain ⟨j, hj, rfl⟩ := List.mem_map.mp hp
    obtain ⟨hjk', hj⟩ := (hdistinct.erase k).mem_erase_iff.mp hj
    have hjk : j ≠ k := (hdistinct.mem_erase_iff.mp hj).1
    simp [Stake.ofTexts, texts, hjk, hjk']
  have hperm : ks.Perm (k :: k' :: others) :=
    (List.perm_cons_erase hk).trans
      ((List.perm_cons_erase ((List.mem_erase_of_ne hne.symm).mpr hk')).cons k)
  have heq := hsame texts (others ++ [k, k']) (others ++ [k', k])
    ((List.perm_append_comm).trans hperm.symm)
    ((List.perm_append_comm).trans ((List.Perm.swap ..).trans hperm.symm))
  rw [List.map_append, List.map_append, afterAll_append, afterAll_append] at heq
  set before := entry.afterAll releases (others.map (Stake.ofTexts name texts)) with hbefore
  have hproper : before.Proper := h.afterAll releases _
  have hheld : before.held k.origin = entry.held k.origin := held_afterAll_of_empty h hempty _
  simp only [List.map_cons, List.map_nil, hgiven, hgiven'] at heq
  have hends : ((before.after releases k [s]).after releases k' [s']).held k.origin
      = ((before.after releases k' [s']).after releases k [s]).held k'.origin := by
    rw [← horigin]
    exact congrArg (held · k.origin) heq
  rw [held_after_twice hproper releases horigin (by simp) (by simp),
    held_after_twice hproper releases horigin.symm (by simp) (by simp), ← horigin, hheld,
    joinDistinct_of_new fun t ht => (hnew t ht).1, joinDistinct_of_new fun t ht => (hnew t ht).2]
    at hends
  have hne' : s ≠ s' := fun heq => huv (Value.text.inj (congrArg Suggestion.value heq))
  refine full_of_cut_eq hne' ?_
  have hcut : ∀ (n : Nat) (w w' : String) (t : Suggestion), w ≠ w' → t.value = .text w →
      (∀ o ∈ entry.held k.origin, o.value ≠ .text w') →
      ∀ o ∈ capped (some n) (entry.held k.origin ++ [t]), o.value ≠ .text w' := by
    intro n w w' t hww' ht hold o ho
    rcases List.mem_append.mp (List.mem_of_mem_take ho) with hmem | hmem
    · exact hold o hmem
    · rw [List.mem_singleton.mp hmem, ht]
      exact fun heq => hww' (Value.text.inj heq)
  rw [joinDistinct_of_new (hcut k.limit u v s huv rfl fun o ho => (hnew o ho).2),
    joinDistinct_of_new (hcut k'.limit v u s' huv.symm rfl fun o ho => (hnew o ho).1)] at hends
  exact hends

/-- **The order of answers never shows just when they are apart.** -/
theorem apart_iff_indifferent (h : entry.Proper) (hdistinct : ks.Nodup)
    (hplaced : ∀ k ∈ ks, ∀ k' ∈ ks, k.category = k'.category → k.origin = k'.origin → k = k') :
    entry.Apart releases ks ↔ entry.Indifferent releases ks name := by
  constructor
  · intro hapart texts ks₁ ks₂ hperm₁ hperm₂
    have hstakes : ∀ js : List Stake, (js.map (Stake.ofTexts name texts)).map Prod.fst = js := by
      intro js
      rw [List.map_map]
      exact List.map_id js
    refine afterAll_perm ((hperm₁.trans hperm₂.symm).map _) h ?_ ?_
    · rw [hstakes]
      exact hperm₁.nodup_iff.mpr hdistinct
    · rw [hstakes]
      exact hapart.of_subset hperm₁.subset
  · intro hsame
    refine ⟨?_, ?_, ?_⟩
    · exact fun k hk k' hk' hne horigin => hsame.places h hdistinct hk hk' hne horigin
    · exact fun k hk k' hk' => hsame.category hk hk'
    · rintro rfl k hk k' hk' hne
      exact hsame.removal h hdistinct hplaced hk hk' hne

end Entry

end QueryBar
