/-
Brackets and their partners.

Comparisons are balanced if they are groups one after the other, each opened and closed around
something balanced, with anything that is no bracket in between (`Balanced`).  Two brackets are
partners if the first opens, the second closes, and what stands between them is balanced
(`Partners`).  Nothing in this mentions a scan.

A scan leaves what is balanced alone, so that two partners are never flagged
(`not_mem_unpaired_of_encloses`).  For the converse, everything that a scan has seen since the
bracket that has waited least is balanced, and so it is between any bracket that waits and the
next one (`Waiting`).  A bracket that is taken from those that wait is therefore the partner of
the one that takes it (`mem_unpaired_or_encloses`).

The scan from the right is a scan of the reversed row in which the brackets have changed their
roles.  Partners stay partners under this, so the two scans flag the same places.
-/
import Mathlib.Data.List.Nodup
import QueryBar.Row.Brackets

namespace QueryBar.Row

/-! ### Partners -/

/-- Groups one after the other, with anything that is no bracket in between. -/
inductive Balanced (opening closing : String) : List String → Prop
  | nil : Balanced opening closing []
  | other {c : String} {cs : List String} (hopening : c ≠ opening) (hclosing : c ≠ closing)
      (hrest : Balanced opening closing cs) : Balanced opening closing (c :: cs)
  | group {inner rest : List String} (hinner : Balanced opening closing inner)
      (hrest : Balanced opening closing rest) :
      Balanced opening closing (opening :: (inner ++ closing :: rest))

/-- The brackets at two places of a row open and close one group. -/
structure Partners (comparisons : List String) (i j : Nat) : Prop where
  before : i < j
  opening : comparisons[i]? = some Bracket.opening.symbol
  closing : comparisons[j]? = some Bracket.closing.symbol
  between : Balanced Bracket.opening.symbol Bracket.closing.symbol
    ((comparisons.take j).drop (i + 1))

/-- A bracket stands at the place. -/
def BracketAt (comparisons : List String) (i : Nat) : Prop :=
  comparisons[i]? = some Bracket.opening.symbol ∨ comparisons[i]? = some Bracket.closing.symbol

/-- What stands at the place has a partner, after it or before it. -/
def HasPartner (comparisons : List String) (i : Nat) : Prop :=
  ∃ j, Partners comparisons i j ∨ Partners comparisons j i

/-! ### Balanced comparisons -/

section Balanced

variable {opening closing : String} {cs ds : List String}

theorem Balanced.append (h : Balanced opening closing cs) (h' : Balanced opening closing ds) :
    Balanced opening closing (cs ++ ds) := by
  induction h with
  | nil => exact h'
  | other hopening hclosing _ ih => exact .other hopening hclosing ih
  | group hinner _ _ ih =>
      rw [List.cons_append, List.append_assoc, List.cons_append]
      exact .group hinner ih

theorem Balanced.singleton {c : String} (hopening : c ≠ opening) (hclosing : c ≠ closing) :
    Balanced opening closing [c] := .other hopening hclosing .nil

theorem Balanced.enclosed (h : Balanced opening closing cs) :
    Balanced opening closing (opening :: (cs ++ [closing])) := .group h .nil

/-- Read backwards, brackets change their roles. -/
theorem Balanced.reverse (h : Balanced opening closing cs) :
    Balanced closing opening cs.reverse := by
  induction h with
  | nil => exact .nil
  | other hopening hclosing _ ih =>
      rw [List.reverse_cons]
      exact ih.append (.singleton hclosing hopening)
  | group _ _ ihinner ihrest =>
      simp only [List.reverse_cons, List.reverse_append, List.append_assoc]
      exact ihrest.append ihinner.enclosed

end Balanced

/-! ### One scan -/

section Scan

variable {opening closing : String} {seen rest : List (Nat × String)} {waiting : List Nat}
  {i j k : Nat} {c : String}

/-- The comparisons have an opening bracket numbered `i` and a closing one numbered `j`, with
something balanced between them. -/
def Encloses (opening closing : String) (cs : List (Nat × String)) (i j : Nat) : Prop :=
  ∃ before between after, cs = before ++ (i, opening) :: (between ++ (j, closing) :: after) ∧
    Balanced opening closing (between.map (·.2))

theorem unpaired_opening : unpaired opening closing waiting ((k, opening) :: rest) =
    unpaired opening closing (k :: waiting) rest := by
  simp [unpaired]

theorem unpaired_closing (hne : opening ≠ closing) :
    unpaired opening closing (i :: waiting) ((k, closing) :: rest) =
      unpaired opening closing waiting rest := by
  simp [unpaired, hne.symm]

theorem unpaired_closing_nil (hne : opening ≠ closing) :
    unpaired opening closing [] ((k, closing) :: rest) = k :: unpaired opening closing [] rest := by
  simp [unpaired, hne.symm]

theorem unpaired_other (hopening : c ≠ opening) (hclosing : c ≠ closing) :
    unpaired opening closing waiting ((k, c) :: rest) = unpaired opening closing waiting rest := by
  simp [unpaired, hopening, hclosing]

/-- A scan leaves what is balanced alone. -/
theorem unpaired_balanced (hne : opening ≠ closing) {between : List (Nat × String)}
    (h : Balanced opening closing (between.map (·.2))) :
    unpaired opening closing waiting (between ++ rest) =
      unpaired opening closing waiting rest := by
  generalize hcs : between.map (·.2) = cs at h
  induction h generalizing between waiting rest with
  | nil =>
      rw [List.map_eq_nil_iff] at hcs
      rw [hcs, List.nil_append]
  | other hopening hclosing _ ih =>
      obtain ⟨⟨k, c⟩, between, rfl, rfl, hrest⟩ := List.map_eq_cons_iff.mp hcs
      rw [List.cons_append, unpaired_other hopening hclosing, ih hrest]
  | group _ _ ihinner ihrest =>
      obtain ⟨⟨k, c⟩, parts, rfl, rfl, hparts⟩ := List.map_eq_cons_iff.mp hcs
      obtain ⟨inner, closed, rfl, hinner, hclosed⟩ := List.map_eq_append_iff.mp hparts
      obtain ⟨⟨k', c'⟩, between, rfl, rfl, hrest⟩ := List.map_eq_cons_iff.mp hclosed
      simp only [List.cons_append, List.append_assoc]
      rw [unpaired_opening, ihinner hinner, unpaired_closing hne, ihrest hrest]

/-- Only brackets are flagged, and what has been waiting. -/
theorem of_mem_unpaired (h : i ∈ unpaired opening closing waiting rest) :
    i ∈ waiting ∨ (i, opening) ∈ rest ∨ (i, closing) ∈ rest := by
  induction rest generalizing waiting with
  | nil => exact Or.inl h
  | cons entry rest ih =>
      obtain ⟨k, c⟩ := entry
      simp only [List.mem_cons, Prod.mk.injEq]
      by_cases hopening : c = opening
      · subst hopening
        rw [unpaired_opening] at h
        have hlater := ih h
        rw [List.mem_cons] at hlater
        tauto
      · by_cases hclosing : c = closing
        · subst hclosing
          cases waiting with
          | nil =>
              rw [unpaired_closing_nil (Ne.symm hopening), List.mem_cons] at h
              have hlater := h.imp_right ih
              tauto
          | cons first waiting =>
              rw [unpaired_closing (Ne.symm hopening)] at h
              have hlater := ih h
              rw [List.mem_cons]
              tauto
        · rw [unpaired_other hopening hclosing] at h
          have hlater := ih h
          tauto

/-- A scan goes on where it stopped, with what has been waiting then; what it has flagged until
then stays flagged. -/
theorem exists_unpaired_append (opening closing : String) (waiting : List Nat)
    (seen : List (Nat × String)) :
    ∃ flagged waiting', ∀ rest, unpaired opening closing waiting (seen ++ rest) =
      flagged ++ unpaired opening closing waiting' rest := by
  induction seen generalizing waiting with
  | nil => exact ⟨[], waiting, fun rest => rfl⟩
  | cons entry seen ih =>
      obtain ⟨k, c⟩ := entry
      simp only [List.cons_append]
      by_cases hopening : c = opening
      · subst hopening
        simp only [unpaired_opening]
        exact ih _
      · by_cases hclosing : c = closing
        · subst hclosing
          cases waiting with
          | nil =>
              obtain ⟨flagged, waiting', h⟩ := ih []
              refine ⟨k :: flagged, waiting', fun rest => ?_⟩
              rw [unpaired_closing_nil (Ne.symm hopening), h, List.cons_append]
          | cons i waiting =>
              simp only [unpaired_closing (Ne.symm hopening)]
              exact ih waiting
        · simp only [unpaired_other hopening hclosing]
          exact ih waiting

/-- **Partners are not flagged.** -/
theorem not_mem_unpaired_of_encloses (hne : opening ≠ closing) {cs : List (Nat × String)}
    (hnumbers : (cs.map (·.1)).Nodup) (h : Encloses opening closing cs i j) :
    i ∉ unpaired opening closing [] cs ∧ j ∉ unpaired opening closing [] cs := by
  obtain ⟨before, between, after, rfl, hbalanced⟩ := h
  obtain ⟨flagged, waiting, hscan⟩ := exists_unpaired_append opening closing [] before
  have hskip : unpaired opening closing [] (before ++ (i, opening) :: (between ++
      (j, closing) :: after)) = flagged ++ unpaired opening closing waiting after := by
    rw [hscan, unpaired_opening, unpaired_balanced hne hbalanced, unpaired_closing hne]
  -- What the scan flags is numbered as something before or after the two brackets.
  have hbefore : ∀ k ∈ flagged ++ waiting, k ∈ before.map (·.1) := by
    intro k hk
    have hend := hscan []
    rw [List.append_nil] at hend
    have hmem : k ∈ unpaired opening closing [] before := by rw [hend]; exact hk
    rcases of_mem_unpaired hmem with hnone | hopening | hclosing
    · simp at hnone
    · exact List.mem_map_of_mem hopening
    · exact List.mem_map_of_mem hclosing
  have houtside : ∀ k ∈ flagged ++ unpaired opening closing waiting after,
      k ∈ before.map (·.1) ∨ k ∈ after.map (·.1) := by
    intro k hk
    rcases List.mem_append.mp hk with hflagged | hscanned
    · exact Or.inl (hbefore k (List.mem_append_left _ hflagged))
    · rcases of_mem_unpaired hscanned with hwaiting | hopening | hclosing
      · exact Or.inl (hbefore k (List.mem_append_right _ hwaiting))
      · exact Or.inr (List.mem_map_of_mem hopening)
      · exact Or.inr (List.mem_map_of_mem hclosing)
  rw [hskip]
  simp only [List.map_append, List.map_cons, List.nodup_append, List.nodup_cons,
    List.mem_append, List.mem_cons] at hnumbers
  constructor
  · intro hi
    rcases houtside i hi with hmem | hmem
    · exact hnumbers.2.2 i hmem i (Or.inl rfl) rfl
    · exact hnumbers.2.1.1 (Or.inr (Or.inr hmem))
  · intro hj
    rcases houtside j hj with hmem | hmem
    · exact hnumbers.2.2 j hmem j (Or.inr (Or.inr (Or.inl rfl))) rfl
    · exact hnumbers.2.1.2.2.1.1 hmem

/-- The brackets that wait, the one that has waited least first: what has been seen since each of
them, up to the next one, is balanced. -/
inductive Waiting (opening closing : String) : List (Nat × String) → List Nat → Prop
  | nil (seen : List (Nat × String)) : Waiting opening closing seen []
  | cons {seen since : List (Nat × String)} {i : Nat} {waiting : List Nat}
      (h : Waiting opening closing seen waiting)
      (hsince : Balanced opening closing (since.map (·.2))) :
      Waiting opening closing (seen ++ (i, opening) :: since) (i :: waiting)

/-- More that is balanced makes no difference to what waits. -/
theorem Waiting.append (h : Waiting opening closing seen waiting) {more : List (Nat × String)}
    (hmore : Balanced opening closing (more.map (·.2))) :
    Waiting opening closing (seen ++ more) waiting := by
  cases h with
  | nil => exact .nil _
  | cons h hsince =>
      rw [List.append_assoc, List.cons_append]
      refine .cons h ?_
      rw [List.map_append]
      exact hsince.append hmore

/-- **A closing bracket is the partner of the one that has waited least.** -/
theorem Waiting.close (h : Waiting opening closing seen (i :: waiting)) (k : Nat)
    (rest : List (Nat × String)) :
    Waiting opening closing (seen ++ [(k, closing)]) waiting ∧
      Encloses opening closing (seen ++ (k, closing) :: rest) i k := by
  cases h with
  | @cons before since _ _ h hsince =>
      constructor
      · have hgroup : Balanced opening closing
            (((i, opening) :: (since ++ [(k, closing)])).map (·.2)) := by
          rw [List.map_cons, List.map_append, List.map_singleton]
          exact hsince.enclosed
        rw [List.append_assoc, List.cons_append]
        exact h.append hgroup
      · refine ⟨before, since, rest, ?_, hsince⟩
        rw [List.append_assoc, List.cons_append]

/-- **What is not flagged has a partner.** -/
theorem mem_unpaired_or_encloses (h : Waiting opening closing seen waiting)
    (hi : i ∈ waiting ∨ (i, opening) ∈ rest ∨ (i, closing) ∈ rest) :
    i ∈ unpaired opening closing waiting rest ∨
      ∃ j, Encloses opening closing (seen ++ rest) i j ∨
        Encloses opening closing (seen ++ rest) j i := by
  induction rest generalizing seen waiting with
  | nil =>
      left
      simpa [unpaired] using hi
  | cons entry rest ih =>
      obtain ⟨k, c⟩ := entry
      have hsplit : seen ++ (k, c) :: rest = (seen ++ [(k, c)]) ++ rest := by simp
      simp only [List.mem_cons, Prod.mk.injEq] at hi
      by_cases hopening : c = opening
      · subst hopening
        rw [unpaired_opening, hsplit]
        refine ih (.cons h .nil) ?_
        rw [List.mem_cons]
        tauto
      · by_cases hclosing : c = closing
        · subst hclosing
          cases waiting with
          | nil =>
              -- Nothing waits, so the bracket is flagged.
              rw [unpaired_closing_nil (Ne.symm hopening), List.mem_cons]
              by_cases hik : i = k
              · exact Or.inl (Or.inl hik)
              · rw [hsplit]
                have hnone : Waiting opening c (seen ++ [(k, c)]) [] := .nil _
                exact (ih hnone (by tauto)).imp_left Or.inr
          | cons first waiting =>
              obtain ⟨hwaiting, hpair⟩ := h.close k rest
              rw [unpaired_closing (Ne.symm hopening)]
              by_cases hfirst : i = first
              · exact Or.inr ⟨k, Or.inl (hfirst ▸ hpair)⟩
              · by_cases hik : i = k
                · exact Or.inr ⟨first, Or.inr (hik ▸ hpair)⟩
                · rw [hsplit]
                  refine ih hwaiting ?_
                  rw [List.mem_cons] at hi
                  tauto
        · rw [unpaired_other hopening hclosing, hsplit]
          refine ih (h.append (.singleton hopening hclosing)) ?_
          tauto

/-- **A scan flags the brackets that have no partner**, whatever the numbers are. -/
theorem mem_unpaired_iff (hne : opening ≠ closing) {cs : List (Nat × String)}
    (hnumbers : (cs.map (·.1)).Nodup) :
    i ∈ unpaired opening closing [] cs ↔ ((i, opening) ∈ cs ∨ (i, closing) ∈ cs) ∧
      ¬ ∃ j, Encloses opening closing cs i j ∨ Encloses opening closing cs j i := by
  constructor
  · intro h
    refine ⟨(of_mem_unpaired h).resolve_left (by simp), ?_⟩
    rintro ⟨j, hpair | hpair⟩
    · exact (not_mem_unpaired_of_encloses hne hnumbers hpair).1 h
    · exact (not_mem_unpaired_of_encloses hne hnumbers hpair).2 h
  · rintro ⟨hbracket, halone⟩
    exact (mem_unpaired_or_encloses (.nil []) (Or.inr hbracket)).resolve_right halone

/-- Read backwards, the partners are the same. -/
theorem Encloses.reverse {cs : List (Nat × String)} (h : Encloses opening closing cs i j) :
    Encloses closing opening cs.reverse j i := by
  obtain ⟨before, between, after, rfl, hbalanced⟩ := h
  refine ⟨after.reverse, between.reverse, before.reverse, by simp, ?_⟩
  rw [List.map_reverse]
  exact hbalanced.reverse

theorem encloses_reverse_iff {cs : List (Nat × String)} :
    Encloses closing opening cs.reverse j i ↔ Encloses opening closing cs i j := by
  constructor
  · intro h
    have hback := h.reverse
    rwa [List.reverse_reverse] at hback
  · exact Encloses.reverse

/-- **Both scans flag the same.** -/
theorem mem_unpaired_reverse_iff (hne : opening ≠ closing) {cs : List (Nat × String)}
    (hnumbers : (cs.map (·.1)).Nodup) :
    i ∈ unpaired closing opening [] cs.reverse ↔ i ∈ unpaired opening closing [] cs := by
  have hback : (cs.reverse.map (·.1)).Nodup := by
    rw [List.map_reverse]
    exact List.nodup_reverse.mpr hnumbers
  rw [mem_unpaired_iff hne hnumbers, mem_unpaired_iff hne.symm hback]
  simp only [encloses_reverse_iff, List.mem_reverse]
  constructor
  · rintro ⟨hbracket, halone⟩
    exact ⟨hbracket.symm, fun ⟨j, hpair⟩ => halone ⟨j, hpair.symm⟩⟩
  · rintro ⟨hbracket, halone⟩
    exact ⟨hbracket.symm, fun ⟨j, hpair⟩ => halone ⟨j, hpair.symm⟩⟩

end Scan

/-! ### The row -/

variable {comparisons : List String} {i j : Nat}

/-- The comparisons of a row with their places. -/
def numbered (comparisons : List String) : List (Nat × String) :=
  comparisons.zipIdx.map fun (c, i) => (i, c)

theorem map_snd_numbered (comparisons : List String) :
    (numbered comparisons).map (·.2) = comparisons := by
  unfold numbered
  rw [List.map_map]
  exact List.zipIdx_map_fst 0 comparisons

theorem map_fst_numbered (comparisons : List String) :
    (numbered comparisons).map (·.1) = List.range comparisons.length := by
  unfold numbered
  rw [List.map_map, List.range_eq_range']
  exact List.zipIdx_map_snd 0 comparisons

theorem nodup_numbered (comparisons : List String) :
    ((numbered comparisons).map (·.1)).Nodup := by
  rw [map_fst_numbered]
  exact List.nodup_range

theorem getElem?_numbered (comparisons : List String) (i : Nat) :
    (numbered comparisons)[i]? = comparisons[i]?.map fun c => (i, c) := by
  unfold numbered
  rw [List.getElem?_map, List.getElem?_zipIdx]
  cases comparisons[i]? <;> simp

theorem mem_numbered_iff {c : String} :
    (i, c) ∈ numbered comparisons ↔ comparisons[i]? = some c := by
  unfold numbered
  simp [List.mem_zipIdx_iff_getElem?]

/-- What is numbered `i` stands at the place `i`. -/
theorem length_of_numbered {before after : List (Nat × String)} {c : String}
    (h : numbered comparisons = before ++ (i, c) :: after) : before.length = i := by
  have hplace := getElem?_numbered comparisons before.length
  rw [h, List.getElem?_append_right (Nat.le_refl _), Nat.sub_self,
    List.getElem?_cons_zero] at hplace
  obtain ⟨c', -, hentry⟩ := Option.map_eq_some_iff.mp hplace.symm
  exact congrArg Prod.fst hentry

/-- A list is taken apart at two of its places. -/
theorem eq_around_of_getElem? {α : Type} {l : List α} {a b : α} (hlt : i < j) (ha : l[i]? = some a)
    (hb : l[j]? = some b) :
    l = l.take i ++ a :: ((l.take j).drop (i + 1) ++ b :: l.drop (j + 1)) := by
  obtain ⟨hi, rfl⟩ := List.getElem?_eq_some_iff.mp ha
  obtain ⟨hj, rfl⟩ := List.getElem?_eq_some_iff.mp hb
  have hsecond : l.drop j = l[j] :: l.drop (j + 1) := List.drop_eq_getElem_cons hj
  have hfirst : (l.take j).drop i = l[i] :: (l.take j).drop (i + 1) := by
    rw [List.drop_eq_getElem_cons (by rw [List.length_take]; omega), List.getElem_take]
  have hbefore : (l.take j).take i = l.take i := by
    rw [List.take_take, Nat.min_eq_left (Nat.le_of_lt hlt)]
  calc l = l.take j ++ l.drop j := (List.take_append_drop j l).symm
    _ = ((l.take j).take i ++ (l.take j).drop i) ++ l.drop j := by rw [List.take_append_drop i]
    _ = l.take i ++ l[i] :: ((l.take j).drop (i + 1) ++ l[j] :: l.drop (j + 1)) := by
      rw [hbefore, hfirst, hsecond, List.append_assoc, List.cons_append]

theorem encloses_numbered_iff : Encloses Bracket.opening.symbol Bracket.closing.symbol
    (numbered comparisons) i j ↔ Partners comparisons i j := by
  constructor
  · rintro ⟨before, between, after, hparts, hbalanced⟩
    have hi : before.length = i := length_of_numbered hparts
    have hsecond : numbered comparisons = (before ++ (i, Bracket.opening.symbol) :: between) ++
        (j, Bracket.closing.symbol) :: after := by
      rw [hparts, List.append_assoc, List.cons_append]
    have hj : (before ++ (i, Bracket.opening.symbol) :: between).length = j :=
      length_of_numbered hsecond
    rw [List.length_append, List.length_cons] at hj
    have hcs := map_snd_numbered comparisons
    rw [hparts] at hcs
    refine ⟨by omega, ?_, ?_, ?_⟩
    · refine mem_numbered_iff.mp ?_
      rw [hparts]
      simp
    · refine mem_numbered_iff.mp ?_
      rw [hparts]
      simp
    · have htake : (comparisons.take j).drop (i + 1) = between.map (·.2) := by
        rw [← hcs, ← hj, ← hi]
        simp [List.take_append, List.drop_append]
      rw [htake]
      exact hbalanced
  · rintro ⟨hlt, hopening, hclosing, hbetween⟩
    have hi : (numbered comparisons)[i]? = some (i, Bracket.opening.symbol) := by
      rw [getElem?_numbered, hopening]
      rfl
    have hj : (numbered comparisons)[j]? = some (j, Bracket.closing.symbol) := by
      rw [getElem?_numbered, hclosing]
      rfl
    refine ⟨_, _, _, eq_around_of_getElem? hlt hi hj, ?_⟩
    rw [List.map_drop, List.map_take, map_snd_numbered]
    exact hbetween

/-! ### Putting the flags in order -/

theorem mem_insertIndex {k : Nat} {js : List Nat} : k ∈ insertIndex i js ↔ k = i ∨ k ∈ js := by
  induction js with
  | nil => simp [insertIndex]
  | cons j js ih =>
      unfold insertIndex
      split
      · simp
      · split
        · rename_i hij
          subst hij
          simp
        · rw [List.mem_cons, ih, List.mem_cons]
          tauto

theorem ascending_insertIndex {js : List Nat} (h : js.Pairwise (· < ·)) :
    (insertIndex i js).Pairwise (· < ·) := by
  induction js with
  | nil => simp [insertIndex]
  | cons j js ih =>
      rw [List.pairwise_cons] at h
      unfold insertIndex
      split
      · rename_i hlt
        rw [List.pairwise_cons, List.pairwise_cons]
        refine ⟨?_, h⟩
        intro k hk
        rcases List.mem_cons.mp hk with rfl | hk
        · exact hlt
        · exact Nat.lt_trans hlt (h.1 k hk)
      · split
        · exact List.pairwise_cons.mpr h
        · refine List.pairwise_cons.mpr ⟨?_, ih h.2⟩
          intro k hk
          rcases mem_insertIndex.mp hk with rfl | hk
          · omega
          · exact h.1 k hk

theorem mem_foldr_insertIndex {k : Nat} {js : List Nat} :
    k ∈ js.foldr insertIndex [] ↔ k ∈ js := by
  induction js with
  | nil => simp
  | cons j js ih => rw [List.foldr_cons, mem_insertIndex, ih, List.mem_cons]

theorem ascending_foldr_insertIndex (js : List Nat) :
    (js.foldr insertIndex []).Pairwise (· < ·) := by
  induction js with
  | nil => exact List.Pairwise.nil
  | cons j js ih => exact ascending_insertIndex ih

/-- **The brackets that are flagged are those that have no partner**, in ascending order, and
each of the two scans flags all of them. -/
theorem unbalanced_flags_exactly_unpartnered (comparisons : List String) :
    (unbalanced comparisons).Pairwise (· < ·) ∧
    (∀ i, i ∈ unbalanced comparisons ↔ BracketAt comparisons i ∧ ¬ HasPartner comparisons i) ∧
    ∀ i, i ∈ unpaired Bracket.opening.symbol Bracket.closing.symbol [] (numbered comparisons) ↔
      i ∈ unpaired Bracket.closing.symbol Bracket.opening.symbol []
        (numbered comparisons).reverse := by
  have hne : Bracket.opening.symbol ≠ Bracket.closing.symbol := by decide
  have hnumbers := nodup_numbered comparisons
  have hboth : ∀ i, i ∈ unpaired Bracket.closing.symbol Bracket.opening.symbol []
      (numbered comparisons).reverse ↔
      i ∈ unpaired Bracket.opening.symbol Bracket.closing.symbol [] (numbered comparisons) :=
    fun i => mem_unpaired_reverse_iff hne hnumbers
  refine ⟨ascending_foldr_insertIndex _, ?_, fun i => (hboth i).symm⟩
  intro i
  show i ∈ List.foldr insertIndex [] (unpaired _ _ [] (numbered comparisons) ++
    unpaired _ _ [] (numbered comparisons).reverse) ↔ _
  rw [mem_foldr_insertIndex, List.mem_append, hboth, or_self, mem_unpaired_iff hne hnumbers]
  simp only [mem_numbered_iff, encloses_numbered_iff]
  rfl

example : unbalanced ["(", "=", "(", "!", ")", ")", ")", "("] = [6, 7] := by decide

end QueryBar.Row
