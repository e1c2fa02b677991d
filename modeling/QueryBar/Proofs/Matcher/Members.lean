/-
A matcher whose members come in any order.

A reader fills one field after the other.  What it has got after some members depends on which they
were and not on their order (`Partial.of`), and members that no matcher has leave it alone.  So the
texts of the six members may be put together in any order, with others among them, and the same
matcher is read (`ofPayload?_objectText`).
-/
import Mathlib.Data.List.Perm.Basic
import QueryBar.Proofs.Matcher.Payload

namespace QueryBar.Matcher

open Json

/-- The members that a matcher is written with. -/
def members (m : Matcher) : List (String × Json) :=
  [("key", .string m.key), ("operator", .string m.operator.name),
    ("comparison", .string m.comparison), ("source", .string m.source),
    ("value", m.value.toJson), ("text", .string m.text)]

def memberNames : List String := ["key", "operator", "comparison", "source", "value", "text"]

/-- The text is that of a member that no matcher has: any other name, and any value. -/
def IsForeign (cs : List Char) : Prop :=
  ∃ name d, name ∉ memberNames ∧ Spells (.member (some name) d) cs

variable {m : Matcher} {room : Nat} {name : String} {names names' : List String} {d : Draft}

/-! ### What has been read so far -/

namespace Partial

/-- The fields with the given names, as they are in a matcher. -/
def of (m : Matcher) (names : List String) : Partial where
  key := if "key" ∈ names then some m.key else none
  operator := if "operator" ∈ names then some m.operator else none
  comparison := if "comparison" ∈ names then some m.comparison else none
  source := if "source" ∈ names then some m.source else none
  value := if "value" ∈ names then some m.value else none
  text := if "text" ∈ names then some m.text else none

/-- The order of the names makes no difference. -/
theorem of_congr (h : ∀ name, name ∈ names ↔ name ∈ names') : of m names = of m names' := by
  unfold of
  simp only [h]

/-- Once all fields are filled the matcher is complete. -/
theorem finish_of (h : memberNames ⊆ names) :
    (of m names).finish = .ok { m with changing := false } := by
  have hmem : ∀ name ∈ memberNames, name ∈ names := fun name hname => h hname
  simp only [memberNames, List.forall_mem_cons] at hmem
  obtain ⟨hkey, hoperator, hcomparison, hsource, hvalue, htext, -⟩ := hmem
  unfold finish of
  simp only [hkey, hoperator, hcomparison, hsource, hvalue, htext, if_true, Draft.filled]
  rfl

/-- A member of the matcher fills its field. -/
theorem take_own (hread : Value.ofDraft room m.value.toJson.draft = .ok m.value)
    (hown : (some name, d) ∈ memberDrafts m.members) (hfresh : name ∉ names) :
    take room (of m names) name d = .ok (of m (name :: names)) := by
  simp only [members, memberDrafts, Json.draft, List.mem_cons, Prod.mk.injEq, Option.some.injEq,
    List.not_mem_nil, or_false] at hown
  rcases hown with ⟨rfl, rfl⟩ | ⟨rfl, rfl⟩ | ⟨rfl, rfl⟩ | ⟨rfl, rfl⟩ | ⟨rfl, rfl⟩ | ⟨rfl, rfl⟩ <;>
    simp only [take, of, Draft.fill, hfresh, if_false, Draft.asText, Operator.ofDraft_name, hread,
      List.mem_cons] <;>
    simp [Except.map, bind, Except.bind, pure, Except.pure]

/-- A member that no matcher has is passed over. -/
theorem take_foreign (p : Partial) (hforeign : name ∉ memberNames) (hwhole : d.isWhole = true) :
    take room p name d = .ok p := by
  simp only [memberNames, List.mem_cons, List.not_mem_nil, or_false, not_or] at hforeign
  obtain ⟨hkey, hoperator, hcomparison, hsource, hvalue, htext⟩ := hforeign
  unfold take
  split
  · contradiction
  · contradiction
  · contradiction
  · contradiction
  · contradiction
  · contradiction
  · unfold Draft.skip
    rw [if_pos hwhole]
    rfl

end Partial

/-! ### Reading member by member -/

/-- A member with a name that no matcher has, whose value can be passed over. -/
def PassedOver (member : Option String × Draft) : Prop :=
  ∃ name, member.1 = some name ∧ name ∉ memberNames ∧ member.2.isWhole = true

/-- The names of those members that a matcher has. -/
def ownNames (read : List (Option String × Draft)) : List String :=
  (read.filterMap Prod.fst).filter (· ∈ memberNames)

theorem ownNames_cons_own (h : name ∈ memberNames) (d : Draft)
    (read : List (Option String × Draft)) :
    ownNames ((some name, d) :: read) = name :: ownNames read := by
  unfold ownNames
  rw [List.filterMap_cons_some (f := Prod.fst) rfl, List.filter_cons_of_pos (by simpa using h)]

theorem ownNames_cons_foreign (h : name ∉ memberNames) (d : Draft)
    (read : List (Option String × Draft)) : ownNames ((some name, d) :: read) = ownNames read := by
  unfold ownNames
  rw [List.filterMap_cons_some (f := Prod.fst) rfl, List.filter_cons_of_neg (by simpa using h)]

theorem ownNames_of_passedOver {foreign : List (Option String × Draft)}
    (h : ∀ member ∈ foreign, PassedOver member) : ownNames foreign = [] := by
  induction foreign with
  | nil => rfl
  | cons member foreign ih =>
      obtain ⟨⟨name, hname, hforeign, -⟩, hrest⟩ := List.forall_mem_cons.mp h
      obtain ⟨key, d⟩ := member
      obtain rfl : key = some name := hname
      rw [ownNames_cons_foreign hforeign]
      exact ih hrest

/-- The name of a member that a matcher is written with. -/
theorem exists_name_of_mem {member : Option String × Draft}
    (h : member ∈ memberDrafts m.members) : ∃ name ∈ memberNames, member.1 = some name := by
  simp only [members, memberDrafts, List.mem_cons, List.not_mem_nil, or_false] at h
  rcases h with rfl | rfl | rfl | rfl | rfl | rfl <;> exact ⟨_, by decide, rfl⟩

/-- **After some members those fields are filled that they are for**, in whichever order they
came. -/
theorem foldMembers_take (hread : Value.ofDraft room m.value.toJson.draft = .ok m.value)
    {read : List (Option String × Draft)}
    (hmembers : ∀ member ∈ read, member ∈ memberDrafts m.members ∨ PassedOver member)
    (hnodup : (ownNames read ++ names).Nodup) :
    Draft.foldMembers (Partial.take room) .closed (Partial.of m names) read =
      .ok (Partial.of m (ownNames read ++ names)) := by
  induction read generalizing names with
  | nil => rfl
  | cons member read ih =>
      obtain ⟨hmember, hrest⟩ := List.forall_mem_cons.mp hmembers
      obtain ⟨key, d⟩ := member
      rcases hmember with hown | ⟨name, hname, hforeign, hwhole⟩
      · obtain ⟨name, hknown, hname⟩ := exists_name_of_mem hown
        obtain rfl : key = some name := hname
        rw [ownNames_cons_own hknown, List.cons_append] at hnodup
        have hfresh : name ∉ names := fun h =>
          (List.nodup_cons.mp hnodup).1 (List.mem_append_right _ h)
        have hsame : Partial.of m (ownNames ((some name, d) :: read) ++ names) =
            Partial.of m (ownNames read ++ name :: names) := by
          rw [ownNames_cons_own hknown]
          exact Partial.of_congr fun other => List.perm_middle.symm.mem_iff
        rw [Draft.foldMembers, Partial.take_own hread hown hfresh, hsame,
          ← ih hrest (List.nodup_middle.mpr hnodup)]
        rfl
      · obtain rfl : key = some name := hname
        rw [ownNames_cons_foreign hforeign] at hnodup ⊢
        rw [Draft.foldMembers, Partial.take_foreign _ hforeign hwhole, ← ih hrest hnodup]
        rfl

/-- **The six members are read in any order, with others among them.** -/
theorem ofDraft_of_perm (hread : Value.ofDraft (room - 1) m.value.toJson.draft = .ok m.value)
    {read foreign : List (Option String × Draft)}
    (hforeign : ∀ member ∈ foreign, PassedOver member)
    (hperm : read.Perm (memberDrafts m.members ++ foreign)) :
    ofDraft room (.object read .closed) = .ok { m with changing := false } := by
  have hmembers : ∀ member ∈ read, member ∈ memberDrafts m.members ∨ PassedOver member := by
    intro member hmember
    exact (List.mem_append.mp (hperm.mem_iff.mp hmember)).imp_right (hforeign member)
  have hnames : (ownNames read).Perm memberNames := by
    have hown : ownNames (memberDrafts m.members ++ foreign) = memberNames := by
      calc ownNames (memberDrafts m.members ++ foreign)
          = ownNames (memberDrafts m.members) ++ ownNames foreign := by
            unfold ownNames
            rw [List.filterMap_append, List.filter_append]
        _ = memberNames := by rw [ownNames_of_passedOver hforeign]; rfl
    exact hown ▸ (hperm.filterMap Prod.fst).filter _
  have hnodup : (ownNames read ++ []).Nodup := by
    rw [List.append_nil]
    exact hnames.nodup_iff.mpr (by decide)
  have hfinish : (Partial.of m (ownNames read ++ [])).finish = .ok { m with changing := false } :=
    Partial.finish_of (by rw [List.append_nil]; exact hnames.symm.subset)
  show Draft.foldMembers (Partial.take (room - 1)) .closed {} read >>= Partial.finish = _
  rw [show ({} : Partial) = Partial.of m [] from rfl, foldMembers_take hread hmembers hnodup]
  exact hfinish

/-! ### The texts of the members -/

/-- What is read of a member that no matcher has is passed over. -/
theorem exists_passedOver {extras : List (List Char)} (h : ∀ cs ∈ extras, IsForeign cs) :
    ∃ foreign : List (Option String × Draft),
      List.Forall₂ (fun cs member => Spells (.member member.1 member.2) cs) extras foreign ∧
        ∀ member ∈ foreign, PassedOver member := by
  induction extras with
  | nil => exact ⟨[], .nil, by simp⟩
  | cons cs extras ih =>
      obtain ⟨⟨name, d, hname, hspells⟩, hrest⟩ := List.forall_mem_cons.mp h
      obtain ⟨foreign, hforeign, hpassed⟩ := ih hrest
      refine ⟨(some name, d) :: foreign, .cons hspells hforeign, ?_⟩
      exact List.forall_mem_cons.mpr ⟨⟨name, rfl, hname, hspells.isWhole⟩, hpassed⟩

/-- **The texts of the six members make up the matcher's text in any order, with the texts of other
members among them.** -/
theorem ofPayload?_objectText
    (hread : Value.ofDraft (Draft.nestingRoom - 1) m.value.toJson.draft = .ok m.value)
    {extras texts : List (List Char)} (hextras : ∀ cs ∈ extras, IsForeign cs)
    (hperm : texts.Perm (m.toJson.memberTexts ++ extras)) :
    ofPayload? (objectText texts) = some { m with changing := false } := by
  obtain ⟨foreign, hforeign, hpassed⟩ := exists_passedOver hextras
  have hspells := List.rel_append (spells_memberTexts m.members) hforeign
  obtain ⟨read, hread', hperm'⟩ := List.perm_comp_forall₂ hperm hspells
  unfold ofPayload?
  rw [ofLexemes_objectText hread']
  dsimp only
  rw [ofDraft_of_perm hread hpassed hperm']
  rfl

/-- **A matcher whose value is a text is dragged as it is.**  Its payload is read as the same
matcher, which is not being edited, and so is any object with the same members in another order and
others among them. -/
theorem payload_round_trips {s : String} (hvalue : m.value = .text s) :
    m.payload = objectText m.toJson.memberTexts ∧
      ofPayload? m.payload = some { m with changing := false } ∧
      ∀ extras texts : List (List Char), (∀ cs ∈ extras, IsForeign cs) →
        texts.Perm (m.toJson.memberTexts ++ extras) →
          ofPayload? (objectText texts) = some { m with changing := false } := by
  have hread : Value.ofDraft (Draft.nestingRoom - 1) m.value.toJson.draft = .ok m.value := by
    rw [hvalue]
    rfl
  have hpayload : m.payload = objectText m.toJson.memberTexts := compact_object m.members
  refine ⟨hpayload, ?_, fun extras texts hextras => ofPayload?_objectText hread hextras⟩
  rw [hpayload]
  exact ofPayload?_objectText hread (List.forall_mem_nil _) (by rw [List.append_nil])

/-- A matcher with quotes, a backslash, a control character and more than ASCII in it. -/
def scrawled : Matcher where
  key := "a\"1\""
  operator := .or
  comparison := "\\="
  source := "größe"
  value := .text "4\u0001½"
  text := "4½\n"
  changing := true

/-- The members may come backwards, after one that says whether the matcher is being edited and one
that is an array. -/
theorem payload_round_trips_scrawled :
    scrawled.value = .text "4\u0001½" ∧
      ofPayload? ("\x7b\"changing\":true,\"seen\" :[ ],\"text\":\"4½\\n\"," ++
          "\"value\":\"4\\u0001½\",\"source\":\"größe\",\"comparison\":\"\\\\=\"," ++
          "\"operator\":\"or\",\"key\":\"a\\\"1\\\"\"\x7d") =
        some { scrawled with changing := false } := by
  have hblank : ∀ c ∈ [' '], Lexeme.isSpace c = true := List.forall_mem_singleton.mpr rfl
  have hchanging : IsForeign (quoted "changing" ++ ':' :: "true".toList) :=
    ⟨_, _, by decide, spells_member _ .trueWord⟩
  have hseen : IsForeign (quoted "seen" ++ ([' '] ++ ':' :: '[' :: ([' '] ++ [']']))) :=
    ⟨_, _, by decide, .member (spellsText_quoted _) hblank (.emptyArray hblank)⟩
  have hread := (payload_round_trips (m := scrawled) rfl).2.2 _ _
    (List.forall_mem_cons.mpr ⟨hchanging, List.forall_mem_cons.mpr ⟨hseen, List.forall_mem_nil _⟩⟩)
    (List.perm_append_comm.trans ((List.reverse_perm scrawled.toJson.memberTexts).append_right _))
  refine ⟨rfl, Eq.trans (congrArg ofPayload? ?_) hread⟩
  decide +kernel

end QueryBar.Matcher
