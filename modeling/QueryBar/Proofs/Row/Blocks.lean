/-
Blocks of matchers that are joined by `or`.

Where `or` groups count once, a source is counted in a scan that remembers one matcher.  What it
counts is a property of the whole row, the number of its maximal blocks.  A block is a stretch of
matchers that belong together, each of which but the first is joined by `or`.

Two blocks that share a place are parts of one (`IsBlock.exists_joint`).  So maximal blocks have no
place in common, and each is told by the place at which it begins.  A block begins where a matcher
belongs to one and does not join the one before it, which is what the scan looks at
(`selectionCount_eq_card_begins`).

Which matchers belong is left open at first.  For the scan it is the source alone that decides: a
bracket and a free text name sources as well, and belong where these are counted
(`selections_are_maximal_blocks`).
-/
import Mathlib.Data.Set.Card
import Mathlib.Order.Interval.Basic
import QueryBar.Proofs.Row.Selections

namespace QueryBar.Row

/-- The matchers of a stretch all belong, and each but the first is joined by `or`. -/
structure IsBlock (belongs : Matcher → Bool) (row : List Matcher) (b : NonemptyInterval Nat) :
    Prop where
  member : ∀ i ∈ b, row[i]?.any belongs = true
  joined : ∀ i ∈ b, b.fst < i → row[i]?.any (·.operator == .or) = true

/-- The place lies in a maximal block. -/
def InBlock (belongs : Matcher → Bool) (row : List Matcher) (i : Nat) : Prop :=
  ∃ b, Maximal (IsBlock belongs row) b ∧ i ∈ b

/-- The matcher at a place is joined by `or` to one before it that belongs. -/
def joins (belongs : Matcher → Bool) (row : List Matcher) (i : Nat) : Bool :=
  decide (0 < i) && row[i]?.any (·.operator == .or) && row[i - 1]?.any belongs

/-- The places at which blocks begin. -/
def begins (belongs : Matcher → Bool) (row : List Matcher) : Finset Nat :=
  (Finset.range row.length).filter fun i => row[i]?.any belongs && !joins belongs row i

variable {belongs : Matcher → Bool} {row : List Matcher} {b c : NonemptyInterval Nat} {i : Nat}
  {source : String} {before : Option Matcher} {m : Matcher}

theorem lt_length_of_any (h : row[i]?.any belongs = true) : i < row.length := by
  by_contra hlength
  rw [List.getElem?_eq_none (by omega)] at h
  contradiction

theorem mem_begins_iff : i ∈ begins belongs row ↔
    row[i]?.any belongs = true ∧ joins belongs row i = false := by
  simp only [begins, Finset.mem_filter, Finset.mem_range, Bool.and_eq_true, Bool.not_eq_true']
  exact ⟨fun h => h.2, fun h => ⟨lt_length_of_any h.1, h⟩⟩

theorem joins_iff : joins belongs row i = true ↔
    0 < i ∧ row[i]?.any (·.operator == .or) = true ∧ row[i - 1]?.any belongs = true := by
  simp only [joins, Bool.and_eq_true, decide_eq_true_eq, and_assoc]

/-! ### Blocks that share a place -/

/-- **Two blocks that share a place are parts of one block**, from the first of their beginnings to
the last of their ends. -/
theorem IsBlock.exists_joint (hb : IsBlock belongs row b) (hc : IsBlock belongs row c) (hib : i ∈ b)
    (hic : i ∈ c) : ∃ d, IsBlock belongs row d ∧ b ≤ d ∧ c ≤ d := by
  rw [NonemptyInterval.mem_def] at hib hic
  refine ⟨⟨(min b.fst c.fst, max b.snd c.snd), by dsimp; omega⟩, ⟨?_, ?_⟩,
    ⟨Nat.min_le_left .., Nat.le_max_left ..⟩, ⟨Nat.min_le_right .., Nat.le_max_right ..⟩⟩
  · rintro j ⟨hfirst, hlast⟩
    dsimp at hfirst hlast
    have hone : (b.fst ≤ j ∧ j ≤ b.snd) ∨ (c.fst ≤ j ∧ j ≤ c.snd) := by omega
    exact hone.elim (hb.member j) (hc.member j)
  · rintro j ⟨-, hlast⟩ hafter
    dsimp at hlast hafter
    -- Beyond the first of the two beginnings, a place is beyond that of a block it lies in.
    have hone : (b.fst < j ∧ j ≤ b.snd) ∨ (c.fst < j ∧ j ≤ c.snd) := by omega
    rcases hone with ⟨hbegun, hends⟩ | ⟨hbegun, hends⟩
    · exact hb.joined j ⟨Nat.le_of_lt hbegun, hends⟩ hbegun
    · exact hc.joined j ⟨Nat.le_of_lt hbegun, hends⟩ hbegun

/-- Maximal blocks that share a place are the same. -/
theorem eq_of_mem_maximal (hb : Maximal (IsBlock belongs row) b)
    (hc : Maximal (IsBlock belongs row) c) (hib : i ∈ b) (hic : i ∈ c) : b = c := by
  obtain ⟨d, hd, hbd, hcd⟩ := hb.prop.exists_joint hc.prop hib hic
  exact (hb.eq_of_le hd hbd).trans (hc.eq_of_le hd hcd).symm

/-! ### Where blocks begin -/

/-- A row has finitely many blocks. -/
theorem finite_isBlock (belongs : Matcher → Bool) (row : List Matcher) :
    {b | IsBlock belongs row b}.Finite := by
  have hplaces : (Set.Iio row.length ×ˢ Set.Iio row.length).Finite :=
    (Set.finite_lt_nat _).prod (Set.finite_lt_nat _)
  refine (hplaces.preimage NonemptyInterval.toProd_injective.injOn).subset fun b hb => ?_
  exact ⟨lt_length_of_any (hb.member b.fst ⟨le_rfl, b.fst_le_snd⟩),
    lt_length_of_any (hb.member b.snd ⟨b.fst_le_snd, le_rfl⟩)⟩

/-- A matcher that belongs is a block. -/
theorem isBlock_pure (h : row[i]?.any belongs = true) :
    IsBlock belongs row (NonemptyInterval.pure i) := by
  constructor
  · rintro j ⟨hfirst, hlast⟩
    obtain rfl : j = i := Nat.le_antisymm hlast hfirst
    exact h
  · rintro j ⟨-, hlast⟩ hafter
    exact absurd hafter (Nat.not_lt.mpr hlast)

/-- **A matcher that belongs lies in a maximal block**, and no other matcher does. -/
theorem inBlock_iff : InBlock belongs row i ↔ row[i]?.any belongs = true := by
  constructor
  · rintro ⟨b, hb, hi⟩
    exact hb.prop.member i hi
  · intro h
    obtain ⟨b, hle, hb⟩ := (finite_isBlock belongs row).exists_le_maximal (isBlock_pure h)
    exact ⟨b, hb, hle⟩

/-- A maximal block begins where one can begin: otherwise it could be made longer at its front. -/
theorem fst_mem_begins (hb : Maximal (IsBlock belongs row) b) : b.fst ∈ begins belongs row := by
  refine mem_begins_iff.mpr ⟨hb.prop.member b.fst ⟨le_rfl, b.fst_le_snd⟩, ?_⟩
  by_contra hjoins
  obtain ⟨hpositive, hor, hbefore⟩ := joins_iff.mp (by simpa using hjoins)
  have hlonger : IsBlock belongs row ⟨(b.fst - 1, b.snd), by have := b.fst_le_snd; omega⟩ := by
    constructor
    · rintro j ⟨hfirst, hlast⟩
      by_cases h : j = b.fst - 1
      · rwa [h]
      · exact hb.prop.member j ⟨by dsimp at hfirst; omega, hlast⟩
    · rintro j ⟨hfirst, hlast⟩ hafter
      by_cases h : j = b.fst
      · rwa [h]
      · dsimp at hafter
        exact hb.prop.joined j ⟨by omega, hlast⟩ (by omega)
  have hle := (hb.le_of_ge hlonger ⟨Nat.sub_le _ _, le_rfl⟩).1
  dsimp at hle
  omega

/-- Where a block can begin, a maximal one does. -/
theorem exists_maximal_of_begins (h : i ∈ begins belongs row) :
    ∃ b, Maximal (IsBlock belongs row) b ∧ b.fst = i := by
  obtain ⟨hmember, hjoins⟩ := mem_begins_iff.mp h
  obtain ⟨b, hb, hi⟩ := inBlock_iff.mpr hmember
  refine ⟨b, hb, ?_⟩
  by_contra hne
  have hfirst : b.fst < i := Nat.lt_of_le_of_ne hi.1 hne
  have hbefore := hb.prop.member (i - 1) ⟨by omega, by have := hi.2; omega⟩
  have hjoined : joins belongs row i = true :=
    joins_iff.mpr ⟨by omega, hb.prop.joined i hi hfirst, hbefore⟩
  rw [hjoins] at hjoined
  contradiction

/-- **There are as many maximal blocks as places at which blocks begin.** -/
theorem encard_maximal (belongs : Matcher → Bool) (row : List Matcher) :
    {b | Maximal (IsBlock belongs row) b}.encard = (begins belongs row).card := by
  have hinj : Set.InjOn (fun b : NonemptyInterval Nat => b.fst)
      {b | Maximal (IsBlock belongs row) b} := by
    intro b hb c hc hfst
    have hsame : b.fst = c.fst := hfst
    exact eq_of_mem_maximal hb hc ⟨le_rfl, b.fst_le_snd⟩ ⟨hsame.ge, hsame ▸ c.fst_le_snd⟩
  have himage : (fun b : NonemptyInterval Nat => b.fst) ''
      {b | Maximal (IsBlock belongs row) b} = begins belongs row := by
    ext i
    constructor
    · rintro ⟨b, hb, rfl⟩
      exact fst_mem_begins hb
    · intro hi
      exact exists_maximal_of_begins hi
  rw [← hinj.encard_image, himage, Set.encard_coe_eq_coe_finsetCard]

/-! ### What the scan counts -/

theorem joins_concat_of_lt (hi : i < row.length) :
    joins belongs (row ++ [m]) i = joins belongs row i := by
  unfold joins
  rw [List.getElem?_append_left hi, List.getElem?_append_left (by omega)]

theorem joins_concat_length : joins belongs (row ++ [m]) row.length =
    (m.operator == .or && row.getLast?.any belongs) := by
  unfold joins
  rw [List.getElem?_concat_length, List.getLast?_eq_getElem?]
  by_cases hempty : row.length = 0
  · simp [List.length_eq_zero_iff.mp hempty]
  · rw [List.getElem?_append_left (by omega)]
    simp [Nat.pos_of_ne_zero hempty]

/-- A matcher that is added behind a row begins a block unless it joins the one before it. -/
theorem card_begins_concat (belongs : Matcher → Bool) (row : List Matcher) (m : Matcher) :
    (begins belongs (row ++ [m])).card = (begins belongs row).card +
      if belongs m && !(m.operator == .or && row.getLast?.any belongs) then 1 else 0 := by
  have hfront : ((Finset.range row.length).filter fun i =>
      (row ++ [m])[i]?.any belongs && !joins belongs (row ++ [m]) i) = begins belongs row := by
    refine Finset.filter_congr fun i hi => ?_
    rw [Finset.mem_range] at hi
    rw [List.getElem?_append_left hi, joins_concat_of_lt hi]
  rw [begins, List.length_append, List.length_singleton, Finset.range_add_one,
    Finset.filter_insert, hfront, joins_concat_length, List.getElem?_concat_length, Option.any_some]
  split
  · rw [Finset.card_insert_of_notMem (by simp [begins])]
  · rfl

/-- **The scan counts the places at which blocks begin.** -/
theorem selectionCount_eq_card_begins (row : List Matcher) (source : String) :
    selectionCount true source none row = (begins (·.source == source) row).card := by
  induction row using List.reverseRecOn with
  | nil => rfl
  | append_singleton row m ih =>
      rw [selectionCount_concat, ih, card_begins_concat]
      rfl

/-- A matcher that counts where `or` groups count once counts where each matcher does. -/
theorem selectionCount_le_of_groups (source : String) (before : Option Matcher)
    (row : List Matcher) :
    selectionCount true source before row ≤ selectionCount false source before row := by
  induction row generalizing before with
  | nil => exact Nat.le_refl 0
  | cons m rest ih =>
      have hcounts : counts true source before m ≤ counts false source before m := by
        unfold counts
        by_cases h : m.source = source
        · simp [h]
          split <;> omega
        · simp [h]
      rw [selectionCount_cons, selectionCount_cons]
      exact Nat.add_le_add hcounts (ih (some m))

/-- **What is counted with `or` groups are the maximal blocks of the source's matchers.**  A place
lies in such a block if its matcher names the source; so a bracket ends a block, unless it is the
source without a name that is counted, and a free text does, unless it is that of free texts.  There
are no more blocks than matchers of the source, which are what is counted without groups. -/
theorem selections_are_maximal_blocks (row : List Matcher) (source : String) :
    {b | Maximal (IsBlock (·.source == source) row) b}.encard =
        selectionCount true source none row ∧
      (∀ i m, row[i]? = some m → (InBlock (·.source == source) row i ↔ m.source = source)) ∧
      (∀ i key side operator, row[i]? = some (.bracket key side operator) →
        (InBlock (·.source == source) row i ↔ source = "")) ∧
      (∀ i key text, row[i]? = some (.freeText key text) →
        (InBlock (·.source == source) row i ↔ source = freeTextSource)) ∧
      selectionCount true source none row ≤ selectionCount false source none row ∧
      selectionCount false source none row = row.countP (·.source == source) := by
  have hplace : ∀ i m, row[i]? = some m →
      (InBlock (·.source == source) row i ↔ m.source = source) := by
    intro i m hm
    rw [inBlock_iff, hm, Option.any_some, beq_iff_eq]
  refine ⟨?_, hplace, ?_, ?_, selectionCount_le_of_groups source none row,
    selectionCount_eq_countP⟩
  · rw [encard_maximal, selectionCount_eq_card_begins]
  · intro i key side operator hbracket
    rw [hplace i _ hbracket]
    exact eq_comm
  · intro i key text hfreeText
    rw [hplace i _ hfreeText]
    exact eq_comm

/-- Two colours in one block, and one each behind a bracket and behind a free text. -/
theorem selections_are_maximal_blocks_colours :
    let term (text : String) (operator : Operator) : Matcher :=
      ⟨text, operator, "=", "colour", .text text, text, false⟩
    let row := [term "red" .and, term "green" .or, .bracket "b" .opening .or, term "blue" .or,
      .freeText "f" "light", term "grey" .or]
    selectionCount true "colour" none row = 3 ∧ selectionCount false "colour" none row = 4 ∧
      {b | Maximal (IsBlock (·.source == "colour") row) b}.encard = 3 ∧
      ¬ InBlock (·.source == "colour") row 2 ∧ InBlock (·.source == "colour") row 3 ∧
      ¬ InBlock (·.source == "colour") row 4 := by
  intro term row
  obtain ⟨hblocks, hplace, hbracket, hfreeText, -⟩ := selections_are_maximal_blocks row "colour"
  have hcount : selectionCount true "colour" none row = 3 := by decide
  refine ⟨hcount, by decide, ?_, ?_, (hplace 3 _ rfl).mpr rfl, ?_⟩
  · rw [hblocks, hcount]
    rfl
  · rw [hbracket 2 "b" .opening .or rfl]
    decide
  · rw [hfreeText 4 "f" "light" rfl]
    decide

/-- A source without a name may be selected once, and a block counts once. -/
def unnamedSource : Config :=
  { Config.ofSources
      [{ name := "", title := "Terms", comparisons := ["="], selectionLimit := some 1 }] with
    limitPolicy := .orGroup }

/-- A bracket names the source that has no name, so that it goes on with a block of its matchers
instead of ending it: where brackets and free texts end blocks there are two of them, but what is
counted is one, and the limit is not exceeded. -/
theorem block_goes_on_with_bracket :
    let term (text : String) (operator : Operator) : Matcher :=
      ⟨text, operator, "=", "", .text text, text, false⟩
    let row := [term "red" .and, .bracket "b" .opening .or]
    let belongs (m : Matcher) : Bool := m.source == "" && !m.isBracket && !m.isFreeText
    {b | Maximal (IsBlock belongs (row ++ [term "green" .or])) b}.encard = 2 ∧
      selectionCount true "" none (row ++ [term "green" .or]) = 1 ∧
      objection? unnamedSource (term "green" .or) row none = none := by
  intro term row belongs
  refine ⟨?_, by decide, by decide⟩
  have hbegins : (begins belongs (row ++ [term "green" .or])).card = 2 := by decide
  rw [encard_maximal, hbegins]
  rfl

end QueryBar.Row
