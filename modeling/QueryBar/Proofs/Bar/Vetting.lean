/-
Who is asked before a matcher goes into the row.

The owner can be given a check of its own, which comes after those of the bar.  A choice, and a
bracket that is committed, go through `EditBox.commit`, where the owner is asked about the
candidate and the next notice, if there is no objection, is the wish for that very matcher.

Two ways into the row go round it: free text, and a bracket that is put before the edited
matcher.  Which of them is taken can be told from the box and the operation (`Unasked`), so that
a matcher has been vetted exactly if its operation is of neither kind.
-/
import QueryBar.Proofs.Bar.Upkeep

namespace QueryBar

/-- The matcher that the owner is asked about. -/
def Notice.consulted? : Notice → Option Matcher
  | .consulted m _ => some m
  | _ => none

/-- The owner has been asked about the matcher in the last of the notices, and has not objected. -/
def Surroundings.Asked (around : Surroundings) (m : Matcher) (before : List Notice) : Prop :=
  ∃ inserting, before.getLast? = some (.consulted m inserting) ∧
    around.objection? m inserting = none

namespace EditBox

variable {e : EditBox} {around : Surroundings} {keys : KeySupply} {asked : Bool}
  {turn : Turn Reaction} {before after : List Notice} {n : Notice} {m : Matcher}

/-- A lone notice is the first. -/
theorem of_singleton_eq {n' : Notice} (h : [n'] = before ++ n :: after) : before = [] ∧ n = n' := by
  cases before with
  | nil => exact ⟨rfl, (List.cons.inj h).1.symm⟩
  | cons first rest => simp at h

/-- **Whether the owner is asked about a matcher that a turn wishes into the row** does not depend
on what comes of the turn. -/
theorem Course.asked_iff (h : Course e around keys asked turn)
    (hnotices : turn.notices = before ++ n :: after) (hm : n.incoming? = some m) :
    around.Asked m before ↔ asked = true := by
  have hnever : ¬ around.Asked m [] := by
    rintro ⟨inserting, hlast, -⟩
    contradiction
  have hasked : ∀ {candidate : Matcher} {inserting : Bool} {wish : Notice},
      around.objection? candidate inserting = none → wish.incoming? = some candidate →
      asked = true → [.consulted candidate inserting, wish] = before ++ n :: after →
      (around.Asked m before ↔ asked = true) := by
    intro candidate inserting wish howner hwish hasked hsplit
    refine iff_of_true ?_ hasked
    cases before with
    | nil =>
        obtain ⟨rfl, -⟩ := List.cons.inj hsplit
        contradiction
    | cons first rest =>
        obtain ⟨rfl, hrest⟩ := List.cons.inj hsplit
        obtain ⟨rfl, rfl⟩ := of_singleton_eq hrest
        obtain rfl := Option.some.inj (hwish.symm.trans hm)
        exact ⟨inserting, rfl, howner⟩
  cases h with
  | quiet _ | emptied _ | refused _ => simp at hnotices
  | turned _ hturns _ =>
      obtain ⟨-, rfl⟩ := of_singleton_eq hnotices
      cases n with
      | changed m => exact hturns.elim
      | insert m => exact hturns.elim
      | _ => contradiction
  | cleared _ | function _ _ _ _ | objected _ =>
      obtain ⟨-, rfl⟩ := of_singleton_eq hnotices
      contradiction
  | committed _ _ howner hyes => exact hasked howner rfl hyes hnotices
  | inserted _ _ howner hyes => exact hasked howner rfl hyes hnotices
  | bracketed _ _ hno | captured _ hno =>
      obtain ⟨rfl, -⟩ := of_singleton_eq hnotices
      refine iff_of_false hnever ?_
      rw [hno]
      exact Bool.false_ne_true

/-- Asides make no difference to what comes after them. -/
theorem asked_asides_iff {asides : List Notice} (h : ∀ n ∈ asides, n = .changing) :
    around.Asked m (asides ++ before) ↔ around.Asked m before := by
  have hasides : ∀ inserting, asides.getLast? ≠ some (.consulted m inserting) := by
    intro inserting hlast
    exact Notice.noConfusion (h _ (List.mem_of_getLast? hlast))
  unfold Surroundings.Asked
  simp only [List.getLast?_append, Option.or_eq_some_iff, List.getLast?_eq_none_iff]
  constructor
  · rintro ⟨inserting, hlast | ⟨-, hlast⟩, howner⟩
    · exact ⟨inserting, hlast, howner⟩
    · exact absurd hlast (hasides inserting)
  · rintro ⟨inserting, hlast, howner⟩
    exact ⟨inserting, Or.inl hlast, howner⟩

/-- A bracket in the text goes before the edited matcher. -/
def BracketPrecedes (e : EditBox) (around : Surroundings) (text : String) : Prop :=
  ∃ b, (Tokens.ofText around.config around.function text).bracket = some b ∧ e.precedes b = true

/-- **A text brings in no matcher but a bracket**, and the owner is asked about it unless it goes
before the edited matcher. -/
theorem asked_typeText_iff {text : String}
    (hnotices : (e.typeText around keys text).notices = before ++ n :: after)
    (hm : n.incoming? = some m) :
    around.Asked m before ↔ ¬ e.BracketPrecedes around text := by
  have hmem : n ∈ (e.typeText around keys text).notices := by
    rw [hnotices]
    simp
  cases hbracket : (Tokens.ofText around.config around.function text).bracket with
  | none =>
      obtain ⟨-, -, hplain⟩ := typeText_of_no_bracket e around keys hbracket
      rw [hplain n hmem] at hm
      contradiction
  | some b =>
      obtain ⟨typed, asides, hbox, -, hasides, -, -, htold⟩ :=
        typeText_of_bracket e around keys hbracket
      have hprecedes : e.BracketPrecedes around text ↔ typed.precedes b = true := by
        unfold BracketPrecedes precedes
        rw [hbracket, hbox.matcher]
        simp
      have hsplit : ∃ told, before = asides ++ told ∧
          (typed.takeBracket around keys b).notices = told ++ n :: after := by
        rw [htold] at hnotices
        rcases List.append_eq_append_iff.mp hnotices with
          ⟨told, hbefore, hrest⟩ | ⟨told, haside, hrest⟩
        · exact ⟨told, hbefore, hrest⟩
        · cases told with
          | nil => exact ⟨[], by simpa using haside.symm, hrest.symm⟩
          | cons first rest =>
              obtain ⟨rfl, -⟩ := List.cons.inj hrest
              rw [hasides n (by simp [haside])] at hm
              contradiction
      obtain ⟨told, rfl, hrest⟩ := hsplit
      rw [asked_asides_iff hasides,
        (typed.course_takeBracket around keys b).asked_iff hrest hm, hprecedes]
      simp

end EditBox

namespace Bar

variable {b : Bar} {operation : Operation} {check : Matcher → Option String}
  {before after : List Notice} {n : Notice} {m : Matcher}

/-- The owner's check was made in the last of the notices, as the bar itself had nothing against the
matcher, and neither had the check. -/
def VettedBy (b : Bar) (check : Matcher → Option String) (m : Matcher)
    (before : List Notice) : Prop :=
  ∃ inserting, before.getLast? = some (.consulted m inserting) ∧
    Row.objection? b.config m b.matchers (if inserting then none else b.active) = none ∧
    check m = none

/-- What the operation may bring in is not put to the owner: free text, or a bracket that goes
before the edited matcher. -/
def Unasked (b : Bar) : Operation → Prop
  | .input text => b.box.BracketPrecedes b.surroundings text
  | .compose operator comparison =>
    b.box.BracketPrecedes b.surroundings (b.box.composedText operator comparison)
  | .key press => b.box.quotes press = true
  | _ => False

theorem vettedBy_iff (h : b.validator = some check) :
    b.VettedBy check m before ↔ b.surroundings.Asked m before := by
  unfold VettedBy Surroundings.Asked surroundings
  simp only [h, Option.bind_some, Option.or_eq_none_iff]

theorem asked_iff (hnotices : b.notices operation = before ++ n :: after)
    (hm : n.incoming? = some m) : b.surroundings.Asked m before ↔ ¬ b.Unasked operation := by
  cases operation with
  | input text => exact EditBox.asked_typeText_iff hnotices hm
  | compose operator comparison => exact EditBox.asked_typeText_iff hnotices hm
  | choose slot insert =>
      have hcourse := b.box.course_select b.surroundings b.keys slot insert
      exact (hcourse.asked_iff hnotices hm).trans (iff_of_true rfl id)
  | key press =>
      have hcourse := b.box.course_key b.surroundings b.keys press
      rw [hcourse.asked_iff hnotices hm]
      simp [Unasked]
  | focus =>
      obtain ⟨-, rfl⟩ := EditBox.of_singleton_eq hnotices
      contradiction
  | _ => simp [notices] at hnotices

/-- **Whether the owner's check has the last word.**  After any use of a bar with a check of the
owner's own, what is done in the box brings nothing into the row but what the box lets the bar
know, and right before each such notice the matcher was put to the check, which did not object,
exactly if the operation neither commits free text nor puts a bracket before the edited
matcher. -/
theorem entries_vetted_iff (b : Bar) (check : Matcher → Option String)
    (history : List Operation) (hbox : operation.isOfBox = true) :
    let now := (b.withValidator check).run history
    (∀ m ∈ (now.perform operation).1.matchers,
      m ∈ now.matchers ∨ ∃ n ∈ now.notices operation, n.incoming? = some m) ∧
    ∀ before n after m, now.notices operation = before ++ n :: after → n.incoming? = some m →
      (now.VettedBy check m before ↔ ¬ now.Unasked operation) := by
  intro now
  have hinstalled : now.validator = some check := validator_run (b.withValidator check) history
  refine ⟨fun m hm => mem_perform hbox hm, ?_⟩
  intro before n after m hnotices hm
  rw [vettedBy_iff hinstalled]
  exact asked_iff hnotices hm

/-- Colours, and free text. -/
def quoting : Config :=
  { Config.ofSources [{
      name := "colour", title := "Colours", comparisons := ["="]
      definitions := [.list { supply := .items [.text "red"] }] }]
    with allowFreeText := true }

/-- The owner objects to a text. -/
def refusing (text : String) (m : Matcher) : Option String :=
  if m.text = text then some "rejected" else none

/-- A red that was chosen was put to the check. -/
theorem entries_vetted_iff_red :
    let now := ((Bar.new quoting 0).withValidator (refusing "secret")).run [.input "red"]
    (Operation.choose 0 false).isOfBox = true ∧
    ∃ before n after m, now.notices (.choose 0 false) = before ++ n :: after ∧
      n.incoming? = some m ∧ m.text = "red" ∧ now.VettedBy (refusing "secret") m before := by
  intro now
  have hbox : (Operation.choose 0 false).isOfBox = true := rfl
  have hred : ∃ n ∈ now.notices (.choose 0 false), n.incoming?.map (·.text) = some "red" := by
    decide +kernel
  obtain ⟨n, hn, htext⟩ := hred
  obtain ⟨m, hm, htext⟩ := Option.map_eq_some_iff.mp htext
  obtain ⟨before, after, hnotices⟩ := List.append_of_mem hn
  refine ⟨hbox, before, n, after, m, hnotices, hm, htext, ?_⟩
  have hvetted := (entries_vetted_iff (.new quoting 0) (refusing "secret") [.input "red"] hbox).2
  exact (hvetted before n after m hnotices hm).mpr id

/-- **Free text comes in although the owner would object to it**, as it is not asked. -/
theorem free_text_unvetted :
    let now := ((Bar.new quoting 0).withValidator (refusing "secret")).run [.input "\"secret"]
    let enter := Operation.key { key := .enter }
    now.matchers.isEmpty = true ∧
      (∃ m ∈ (now.perform enter).1.matchers, refusing "secret" m = some "rejected") ∧
      ∀ n ∈ now.notices enter, n.consulted? = none := by
  decide +kernel

/-- **So does a bracket before the matcher that is edited**, while at the end of the row the owner's
objection would stand. -/
theorem bracket_unvetted :
    let now := ((Bar.new quoting 0).withValidator (refusing "")).run
      [.input "red", .key { key := .enter }]
    let edited := now.select 0
    let typing := Operation.input "("
    (∀ m ∈ edited.matchers, refusing "" m = none) ∧
      (∃ m ∈ (edited.perform typing).1.matchers, refusing "" m = some "rejected") ∧
      (∀ n ∈ edited.notices typing, n.consulted? = none) ∧
      (now.perform typing).1.matchers.length = now.matchers.length := by
  decide +kernel

end Bar

end QueryBar
