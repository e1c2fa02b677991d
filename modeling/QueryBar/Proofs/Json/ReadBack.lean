/-
Values that are read again from what is written for them.

A reader is given a value that was made of a text, in which the members of an object are sorted by
name.  What a reader finds under a name is all the same what was written under it, as long as each
name was written once (`exists_members`).  So it can be said of a reader and of a part of a value
whether the part is read back (`ReadsBack`), wherever in the value it stands; and what holds of the
parts holds of an array of them (`readsBack_array`), and of every member of an object
(`exists_object`).
-/
import QueryBar.Proofs.Json.Compact

namespace QueryBar.Json

/-- What is written for a value is read as `a`, where values may be nested to a depth below
`room`. -/
def ReadsBack {α : Type} (room : Nat) (read? : Json → Option α) (j : Json) (a : α) : Prop :=
  (j.draft.json? room).bind read? = some a

variable {α : Type} {room : Nat} {read? : Json → Option α} {j : Json} {a : α}
  {members : List (String × Json)}

theorem ReadsBack.exists_json? (h : ReadsBack room read? j a) :
    ∃ k, j.draft.json? room = some k ∧ read? k = some a :=
  Option.bind_eq_some_iff.mp h

/-- What is read back stands for some value. -/
theorem ReadsBack.readable (h : ReadsBack room read? j a) : ∃ k, j.draft.json? room = some k :=
  h.exists_json?.imp fun _ h => h.1

theorem readsBack_of_json? {k : Json} (hjson : j.draft.json? room = some k)
    (hread : read? k = some a) : ReadsBack room read? j a :=
  Option.bind_eq_some_iff.mpr ⟨k, hjson, hread⟩

/-! ### Arrays -/

/-- Items are read back one by one. -/
theorem exists_items {as : List α} {write : α → Json}
    (h : ∀ a ∈ as, ReadsBack room read? (write a) a) :
    ∃ items, Draft.items? room (itemDrafts (as.map write)) = some items ∧
      items.mapM read? = some as := by
  induction as with
  | nil => exact ⟨[], rfl, rfl⟩
  | cons a as ih =>
      obtain ⟨hfirst, hrest⟩ := List.forall_mem_cons.mp h
      obtain ⟨item, hitem, hread⟩ := hfirst.exists_json?
      obtain ⟨items, hitems, hreads⟩ := ih hrest
      refine ⟨item :: items, ?_, ?_⟩
      · simp [itemDrafts, Draft.items?, hitem, hitems]
      · simp [hread, hreads]

/-- **An array is read back if its items are.** -/
theorem readsBack_array {as : List α} {write : α → Json} {readAll? : Json → Option (List α)}
    (hroom : 1 < room) (hreader : ∀ items, readAll? (.array items) = items.mapM read?)
    (h : ∀ a ∈ as, ReadsBack (room - 1) read? (write a) a) :
    ReadsBack room readAll? (.array (as.map write)) as := by
  obtain ⟨items, hitems, hreads⟩ := exists_items h
  refine readsBack_of_json? (k := .array items) ?_ ((hreader items).trans hreads)
  simp [draft, Draft.json?, hroom, hitems]

/-! ### Objects -/

theorem lookup_member (name other : String) (j : Json) (sorted : List (String × Json)) :
    ((name, j) :: sorted).lookup other = if other = name then some j else sorted.lookup other := by
  by_cases h : other = name
  · simp [h]
  · simp [List.lookup_cons, h, beq_eq_false_iff_ne.mpr h]

/-- A member that is put among others is found under its name, and all others are under theirs. -/
theorem lookup_insertMember (name other : String) (j : Json) (sorted : List (String × Json)) :
    (Draft.insertMember name j sorted).lookup other =
      if other = name then some j else sorted.lookup other := by
  induction sorted with
  | nil => exact lookup_member name other j []
  | cons member sorted ih =>
      obtain ⟨first, k⟩ := member
      unfold Draft.insertMember
      by_cases hname : name = first
      · rw [if_pos hname, lookup_member, lookup_member, ← hname]
        by_cases h : other = name <;> simp [h]
      rw [if_neg hname]
      by_cases hless : name < first
      · rw [if_pos hless, lookup_member]
      · rw [if_neg hless, lookup_member, lookup_member, ih]
        by_cases h : other = first
        · simp [h, Ne.symm hname]
        · simp [h]

/-- **What was written under a name is found under it**, if each name was written once; under any
other name there is what was there before. -/
theorem exists_members (h : ∀ member ∈ members, ∃ k, member.2.draft.json? room = some k)
    (hnodup : (members.map Prod.fst).Nodup) (sorted : List (String × Json)) :
    ∃ read, Draft.members? room sorted (memberDrafts members) = some read ∧
      (∀ member ∈ members, read.lookup member.1 = member.2.draft.json? room) ∧
      ∀ name, name ∉ members.map Prod.fst → read.lookup name = sorted.lookup name := by
  induction members generalizing sorted with
  | nil => exact ⟨sorted, rfl, by simp, fun _ _ => rfl⟩
  | cons member members ih =>
      obtain ⟨name, j⟩ := member
      obtain ⟨⟨k, hk⟩, hrest⟩ := List.forall_mem_cons.mp h
      rw [List.map_cons, List.nodup_cons] at hnodup
      obtain ⟨read, hread, hown, hother⟩ := ih hrest hnodup.2 (Draft.insertMember name k sorted)
      refine ⟨read, ?_, ?_, ?_⟩
      · rw [memberDrafts, Draft.members?]
        dsimp only at hk
        rw [hk]
        exact hread
      · intro member hmember
        rcases List.mem_cons.mp hmember with rfl | hmember
        · rw [hother name hnodup.1, lookup_insertMember, if_pos rfl, ← hk]
        · exact hown member hmember
      · intro other hfresh
        rw [List.map_cons, List.mem_cons, not_or] at hfresh
        rw [hother other hfresh.2, lookup_insertMember, if_neg hfresh.1]

/-- **An object is read with each member under its name.** -/
theorem exists_object (hroom : 1 < room)
    (h : ∀ member ∈ members, ∃ k, member.2.draft.json? (room - 1) = some k)
    (hnodup : (members.map Prod.fst).Nodup) :
    ∃ read, (object members).draft.json? room = some (.object read) ∧
      ∀ member ∈ members, read.lookup member.1 = member.2.draft.json? (room - 1) := by
  obtain ⟨read, hread, hown, -⟩ := exists_members h hnodup []
  refine ⟨read, ?_, hown⟩
  simp [draft, Draft.json?, hroom, hread]

end QueryBar.Json
