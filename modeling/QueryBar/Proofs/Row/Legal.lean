/-
Rows in which there is nothing to object to.

A row is legal if each matcher has a comparison that fits its source and no source is selected
too often.  No matcher of a legal row is objected to in its place.

A row stays legal if nothing comes into it, or only a matcher that its source said nothing
against in a row that has at least what the new one has.  Brackets and free texts are of no
source as long as the sources keep clear of their names.
-/
import Mathlib.Data.List.Perm.Subperm
import QueryBar.Proofs.Config
import QueryBar.Proofs.Row.Selections

namespace QueryBar

/-- The comparison is one of the source's, and makes sense if a pattern is behind it. -/
structure Source.Fits (s : Source) (comparison : String) : Prop where
  allowed : s.allows comparison = true
  pattern : s.isPatternBacked = true → comparison ∈ Row.patternComparisons

/-- No source is named as brackets or free texts are, and none compares with their marks. -/
structure Config.Unmixed (c : Config) : Prop where
  names : ∀ s ∈ c.sources, s.name ≠ "" ∧ s.name ≠ freeTextSource
  comparisons : ∀ s ∈ c.sources, ∀ mark ∈ [Bracket.opening.symbol, Bracket.closing.symbol,
    freeTextMark], s.allows mark = false

namespace Config.Unmixed

variable {c : Config} {s : Source} {m : Matcher}

theorem source?_bracket (h : c.Unmixed) : c.source? "" = none :=
  source?_eq_none_iff.mpr fun s hs => (h.names s hs).1

theorem source?_freeText (h : c.Unmixed) : c.source? freeTextSource = none :=
  source?_eq_none_iff.mpr fun s hs => (h.names s hs).2

/-- What a source allows is neither a bracket nor a free text. -/
theorem term_of_allows (h : c.Unmixed) (hs : s ∈ c.sources)
    (hallows : s.allows m.comparison = true) : m.isBracket = false ∧ m.isFreeText = false := by
  have hmark : ∀ mark ∈ [Bracket.opening.symbol, Bracket.closing.symbol, freeTextMark],
      m.comparison ≠ mark := by
    rintro mark hmem rfl
    exact absurd hallows (by simp [h.comparisons s hs _ hmem])
  constructor
  · unfold Matcher.isBracket Matcher.bracket? Bracket.ofSymbol?
    rw [if_neg (hmark "(" (by decide)), if_neg (hmark ")" (by decide))]
    rfl
  · exact beq_eq_false_iff_ne.mpr (hmark freeTextMark (by decide))

end Config.Unmixed

namespace Row

variable {c : Config} {s : Source} {m : Matcher} {row row' : List Matcher} {replaced : Option Nat}
  {i : Nat}

/-! ### What it means that nothing is said -/

/-- Neighbours that are joined by `or` are one selection. -/
def countsGroups (c : Config) : Bool := c.limitPolicy == .orGroup && c.mode != .simple

theorem countsGroups_of_individual (h : c.limitPolicy = .individual) : countsGroups c = false := by
  unfold countsGroups
  rw [h]
  rfl

theorem sourceObjection?_eq_none_iff : sourceObjection? c s m row replaced = none ↔
    s.Fits m.comparison ∧ ∀ limit, s.selectionLimit = some limit →
      selectionCount (countsGroups c) s.name none (resulting m row replaced) ≤ limit := by
  unfold sourceObjection? countsGroups
  constructor
  · intro h
    split at h
    · simp at h
    · rename_i hallowed
      split at h
      · simp at h
      · rename_i hpattern
        refine ⟨⟨by simpa using hallowed, fun hbacked => ?_⟩, fun limit hlimit => ?_⟩
        · simpa [hbacked] using hpattern
        · rw [hlimit, Option.bind_some] at h
          simpa using h
  · rintro ⟨⟨hallowed, hpattern⟩, hlimits⟩
    rw [if_neg (by simp [hallowed]), if_neg (by simpa using hpattern)]
    cases hlimit : s.selectionLimit with
    | none => rfl
    | some limit =>
        rw [Option.bind_some]
        exact if_neg (Nat.not_lt.mpr (hlimits limit hlimit))

/-- A term of a source is judged by its source. -/
theorem objection?_of_source (hunmixed : c.Unmixed) (hsource : c.source? m.source = some s)
    (hallows : s.allows m.comparison = true) :
    objection? c m row replaced = sourceObjection? c s m row replaced := by
  obtain ⟨hbracket, hfree⟩ := hunmixed.term_of_allows (Config.of_source? hsource).1 hallows
  unfold objection?
  rw [hbracket, hfree, hsource]
  rfl

/-! ### Legal rows -/

/-- Every comparison fits its source, and no source is selected too often. -/
structure Legal (c : Config) (row : List Matcher) : Prop where
  fits : ∀ m ∈ row, ∀ s, c.source? m.source = some s → s.Fits m.comparison
  limits : ∀ s limit, c.source? s.name = some s → s.selectionLimit = some limit →
    row.countP (·.source == s.name) ≤ limit

theorem legal_nil (c : Config) : Legal c [] where
  fits m hm := by simp at hm
  limits s limit _ _ := by simp

/-- **No matcher of a legal row is objected to in its place.** -/
theorem Legal.objection?_eq_none (h : Legal c row) (hpolicy : c.limitPolicy = .individual)
    (hm : row[i]? = some m) : objection? c m row (some i) = none := by
  obtain ⟨hi, rfl⟩ := List.getElem?_eq_some_iff.mp hm
  unfold objection?
  split
  · rfl
  · cases hs : c.source? row[i].source with
    | none => rfl
    | some s =>
        rw [Option.bind_some, sourceObjection?_eq_none_iff]
        refine ⟨h.fits _ (List.getElem_mem hi) s hs, fun limit hlimit => ?_⟩
        have hsame : resulting row[i] row (some i) = row := by
          show (if i < row.length then row.set i row[i] else row ++ [row[i]]) = row
          rw [if_pos hi, List.set_getElem_self]
        rw [hsame, countsGroups_of_individual hpolicy, selectionCount_eq_countP]
        exact h.limits s limit ((Config.of_source? hs).2 ▸ hs) hlimit

theorem Legal.of_subperm (h : Legal c row) (hsub : List.Subperm row' row) : Legal c row' where
  fits m hm := h.fits m (hsub.subset hm)
  limits s limit hs hlimit := Nat.le_trans (hsub.countP_le _) (h.limits s limit hs hlimit)

/-- A matcher that fits, and that makes no source be selected too often, may come in. -/
theorem Legal.of_incoming (h : Legal c row) (hsub : List.Subperm row' (m :: row))
    (hfits : ∀ s, c.source? m.source = some s → s.Fits m.comparison)
    (hlimits : ∀ s limit, c.source? m.source = some s → s.selectionLimit = some limit →
      row'.countP (·.source == s.name) ≤ limit) : Legal c row' where
  fits n hn := by
    rcases List.mem_cons.mp (hsub.subset hn) with rfl | hold
    · exact hfits
    · exact h.fits n hold
  limits s limit hs hlimit := by
    by_cases hsource : m.source = s.name
    · exact hlimits s limit (hsource ▸ hs) hlimit
    · have hothers : (m :: row).countP (·.source == s.name) = row.countP (·.source == s.name) :=
        List.countP_cons_of_neg (by simpa using hsource)
      calc row'.countP (·.source == s.name)
          ≤ (m :: row).countP (·.source == s.name) := hsub.countP_le _
        _ = row.countP (·.source == s.name) := hothers
        _ ≤ limit := h.limits s limit hs hlimit

/-- That a matcher fits is known if its source said nothing against it, and of the limits if it was
judged in a row that has at least what the new one has. -/
theorem Legal.of_judged (h : Legal c row) (hpolicy : c.limitPolicy = .individual)
    (hsub : List.Subperm row' (m :: row))
    (hjudged : ∀ s, c.source? m.source = some s → sourceObjection? c s m row replaced = none)
    (hresult : List.Subperm row' (resulting m row replaced)) : Legal c row' := by
  refine h.of_incoming hsub ?_ ?_
  · intro s hs
    exact (sourceObjection?_eq_none_iff.mp (hjudged s hs)).1
  · intro s limit hs hlimit
    have hle := (sourceObjection?_eq_none_iff.mp (hjudged s hs)).2 limit hlimit
    rw [countsGroups_of_individual hpolicy, selectionCount_eq_countP] at hle
    exact Nat.le_trans (hresult.countP_le _) hle

end Row

end QueryBar
