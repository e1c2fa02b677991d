/-
What the observer is told in the course of a history.

The observer is told of an edit that is announced, and then of the row that an operation leaves, if
it has changed (`exists_told_meet`).  So the last row that it has been told is the present one, up
to which matcher is marked as being edited (`Heard`).  That needs no care of the owner, as an
announcement tells the row as it is.

Others may draw keys from the supply of the bar all the while, as a key is drawn for a matcher that
is to be added (`Happening`).
-/
import QueryBar.Proofs.Bar.Reports

namespace QueryBar

/-- Something is done to a bar, or others draw a key from its supply. -/
inductive Happening
  | done (operation : Operation)
  | drawn

namespace Bar

/-- What becomes of a bar when something happens. -/
def meet (b : Bar) : Happening → Bar
  | .done operation => (b.perform operation).1
  | .drawn => b.withKeys b.keys.advance

/-- What becomes of a bar when one thing happens after the other. -/
def through (b : Bar) (history : List Happening) : Bar := history.foldl meet b

variable {b start : Bar} {happening : Happening} {history : List Happening}
  {row known : List Matcher} {key : String}

/-! ### Rows and their marks -/

/-- A row without its marks. -/
def unmarked (row : List Matcher) : List Matcher := row.map fun m => { m with changing := false }

/-- Some matcher of the row is marked as being edited. -/
def marks (row : List Matcher) : Bool := row.any (·.changing)

theorem unmarked_marking (key : String) (row : List Matcher) :
    unmarked (marking key row) = unmarked row := by
  unfold unmarked marking
  rw [List.map_map]
  refine List.map_congr_left fun m _ => ?_
  rw [Function.comp_apply]
  split <;> rfl

theorem marks_marking (h : key ∈ row.map (·.key)) : marks (marking key row) = true := by
  obtain ⟨m, hm, rfl⟩ := List.mem_map.mp h
  refine List.any_eq_true.mpr ⟨_, List.mem_map_of_mem hm, ?_⟩
  rw [if_pos rfl]

theorem not_marks_iff : marks row = false ↔ ∀ m ∈ row, m.changing = false := by
  unfold marks
  rw [List.any_eq_false]
  simp

/-! ### What the observer is told -/

/-- What the observer is told in the course of a history. -/
def toldDuring (b : Bar) (history : List Happening) : List (List Matcher) :=
  (b.through history).told.drop b.told.length

/-- What the observer is told of an edit when something happens. -/
def announced (b : Bar) : Happening → List (List Matcher)
  | .done operation => b.announcement operation
  | .drawn => []

/-- What is told of an edit is the row with the edited matcher marked. -/
theorem announced_cases (b : Bar) (happening : Happening) :
    b.announced happening = [] ∨ ∃ key, b.box.edited? = some key ∧
      b.announced happening = [marking key b.matchers] := by
  cases happening with
  | done operation =>
      show b.announcement operation = [] ∨ ∃ key, _ ∧ b.announcement operation = _
      unfold announcement
      split
      · cases b.box.edited? with
        | none => exact Or.inl rfl
        | some key => exact Or.inr ⟨key, rfl, rfl⟩
      · exact Or.inl rfl
  | drawn => exact Or.inl rfl

/-- **The observer is told of the edit, if at all, and then of the row if it has changed.** -/
theorem exists_told_meet (hown : ∀ row, happening ≠ .done (.sync row)) :
    ∃ rows, (b.meet happening).told = b.told ++ (b.announced happening ++ rows) ∧
      (rows = [] ∧ (b.meet happening).matchers = b.matchers ∨
        rows = [(b.meet happening).matchers]) := by
  cases happening with
  | done operation =>
      obtain ⟨heard, hannounced, hreports⟩ :=
        b.exists_announced operation fun row heq => hown row (heq ▸ rfl)
      rcases hreports.told with ⟨htold, hsame⟩ | htold
      · refine ⟨[], ?_, Or.inl ⟨rfl, hsame.trans hannounced.row⟩⟩
        rw [List.append_nil]
        exact htold.trans hannounced.told
      · refine ⟨_, ?_, Or.inr rfl⟩
        rw [← List.append_assoc]
        exact htold.trans (congrArg (· ++ _) hannounced.told)
  | drawn => exact ⟨[], (List.append_nil _).symm, Or.inl ⟨rfl, rfl⟩⟩

theorem told_through (hown : ∀ row, .done (.sync row) ∉ history) :
    (b.through history).told = b.told ++ b.toldDuring history := by
  have hprefix : b.told <+: (b.through history).told := by
    induction history generalizing b with
    | nil => exact List.prefix_refl _
    | cons happening rest ih =>
        obtain ⟨rows, htold, -⟩ := exists_told_meet (b := b)
          (fun row heq => hown row (heq ▸ List.mem_cons_self))
        have hfirst : b.told <+: (b.meet happening).told := htold ▸ List.prefix_append ..
        exact hfirst.trans (ih fun row hmem => hown row (List.mem_cons_of_mem _ hmem))
  obtain ⟨more, hmore⟩ := hprefix
  unfold toldDuring
  rw [← hmore, List.drop_left]

theorem toldDuring_nil (b : Bar) : b.toldDuring [] = [] := List.drop_length

theorem toldDuring_cons (hown : ∀ row, .done (.sync row) ∉ happening :: history) :
    b.toldDuring (happening :: history) =
      b.toldDuring [happening] ++ (b.meet happening).toldDuring history := by
  have hfirst : ∀ row, .done (.sync row) ∉ [happening] := fun row hmem =>
    hown row (List.mem_singleton.mp hmem ▸ List.mem_cons_self)
  have hrest : ∀ row, .done (.sync row) ∉ history := fun row hmem =>
    hown row (List.mem_cons_of_mem _ hmem)
  have hone : (b.meet happening).told = b.told ++ b.toldDuring [happening] := told_through hfirst
  have hboth : ((b.meet happening).through history).told =
      b.told ++ b.toldDuring (happening :: history) := told_through hown
  rw [told_through hrest, hone, List.append_assoc] at hboth
  exact (List.append_cancel_left hboth).symm

/-- At once the observer is told nothing but the announcement and the row that is left. -/
theorem exists_toldDuring_singleton (hown : ∀ row, happening ≠ .done (.sync row)) :
    ∃ rows, b.toldDuring [happening] = b.announced happening ++ rows ∧
      ∀ row ∈ rows, row = (b.meet happening).matchers := by
  obtain ⟨rows, htold, hrows⟩ := exists_told_meet (b := b) hown
  refine ⟨rows, ?_, fun row hmem => ?_⟩
  · show (b.meet happening).told.drop b.told.length = _
    rw [htold, List.drop_left]
  · rcases hrows with ⟨rfl, -⟩ | rfl
    · contradiction
    · exact List.mem_singleton.mp hmem

/-- The last row that the observer was told, or the one it knew before, is the present one up to its
marks. -/
def Heard (known : List Matcher) (b : Bar) : Prop :=
  unmarked (b.told.getLast?.getD known) = unmarked b.matchers

theorem Heard.meet (h : Heard known b)
    (hown : ∀ row, happening ≠ .done (.sync row)) : Heard known (b.meet happening) := by
  obtain ⟨rows, htold, ⟨rfl, hsame⟩ | rfl⟩ := exists_told_meet (b := b) hown
  · unfold Heard
    rw [htold, hsame, List.append_nil]
    rcases b.announced_cases happening with hnone | ⟨key, -, hmarked⟩
    · rw [hnone, List.append_nil]
      exact h
    · rw [hmarked, List.getLast?_concat, Option.getD_some, unmarked_marking]
  · unfold Heard
    rw [htold, ← List.append_assoc, List.getLast?_concat, Option.getD_some]

theorem Heard.through (h : Heard known b)
    (hown : ∀ row, .done (.sync row) ∉ history) : Heard known (b.through history) := by
  induction history generalizing b with
  | nil => exact h
  | cons happening rest ih =>
      have hfirst := h.meet fun row heq => hown row (heq ▸ List.mem_cons_self)
      exact ih hfirst fun row hmem => hown row (List.mem_cons_of_mem _ hmem)

theorem told_built (h : start.Built) : start.told = [] := by
  induction h with
  | new config owner => rfl
  | equip _ hequips ih => cases hequips <;> exact ih

end Bar

end QueryBar
