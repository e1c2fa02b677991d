/-
A matcher that travels as JSON, read again.

Everything in a matcher comes back from its payload as it was, except for the value: a date comes
back as a text, and a number as its numeral is read.  So the payload is read exactly if the value
is (`ofPayload?_payload`).  That is so for every text, every date and every finite number; what is
not a finite number is written as `null`, which is no value, and with it the whole payload is
refused.
-/
import QueryBar.Matcher.Payload
import QueryBar.Proofs.Json.Compact
import QueryBar.Proofs.Json.Scaling

namespace QueryBar

open Json

/-! ### Values -/

/-- JSON can spell the value: if it is a number, it is a finite one. -/
def Value.HasSpelling : Value → Prop
  | .number .nan => False
  | .number (.infinite _) => False
  | _ => True

instance : DecidablePred Value.HasSpelling
  | .number .nan => .isFalse id
  | .number (.infinite _) => .isFalse id
  | .number (.finite ..) => .isTrue trivial
  | .text _ => .isTrue trivial
  | .date _ => .isTrue trivial

/-- What a numeral stands for is a number. -/
theorem Json.Numeral.kind_of_value? {n : Numeral} {j : Json} (h : n.value? = some j) :
    (∃ i, j = .integer i) ∨ ∃ x, j = .number x := by
  unfold Numeral.value? at h
  dsimp only at h
  split at h
  · exact .inl ⟨_, (Option.some.inj h).symm⟩
  · obtain ⟨x, -, rfl⟩ := Option.map_eq_some_iff.mp h
    exact .inr ⟨_, rfl⟩

namespace Value

variable {v : Value}

/-- A value that can be spelled is read again. -/
theorem exists_ofDraft (h : v.HasSpelling) (room : Nat) :
    ∃ read, ofDraft room v.toJson.draft = .ok read := by
  cases v with
  | text s => exact ⟨.text s, rfl⟩
  | date t => exact ⟨.text t.jsonText, rfl⟩
  | number x =>
      cases x with
      | nan => exact h.elim
      | infinite negative => exact h.elim
      | finite negative m =>
          obtain ⟨j, hj⟩ := Option.isSome_iff_exists.mp (Numeral.value?_ofMagnitude negative m)
          have hdraft : (Value.toJson (.number (.finite negative m))).draft =
              .numeral (.ofMagnitude negative m) := by
            rw [toJson, Json.draft, numberDraft]
          unfold ofDraft
          rw [hdraft, Draft.json?, hj]
          obtain ⟨i, rfl⟩ | ⟨x, rfl⟩ := Numeral.kind_of_value? hj
          · exact ⟨_, rfl⟩
          · exact ⟨_, rfl⟩

/-- One that cannot stands as `null`, and is refused. -/
theorem ofDraft_of_not_hasSpelling (h : ¬ v.HasSpelling) (room : Nat) :
    ofDraft room v.toJson.draft = .error .mismatch := by
  cases v with
  | text s => exact (h trivial).elim
  | date t => exact (h trivial).elim
  | number x =>
      cases x with
      | nan => rfl
      | infinite negative => rfl
      | finite negative m => exact (h trivial).elim

end Value

/-! ### Matchers -/

namespace Operator

theorem ofDraft_name (o : Operator) : ofDraft (.text (some o.name)) = .ok o := by
  cases o <;> rfl

end Operator

namespace Matcher

/-- The six members are read in the order in which they are written, each as it was, except for
the value. -/
theorem ofDraft_draft (room : Nat) (m : Matcher) :
    ofDraft room m.toJson.draft = (Value.ofDraft (room - 1) m.value.toJson.draft).map
      fun read => { m with value := read, changing := false } := by
  unfold toJson
  simp only [Json.draft, memberDrafts, ofDraft, Draft.foldMembers, Partial.take, Draft.fill,
    Draft.asText, Operator.ofDraft_name]
  cases Value.ofDraft (room - 1) m.value.toJson.draft <;> rfl

/-- **A payload is read exactly if its value is**, and gives the matcher with the value that was
read. -/
theorem ofPayload?_payload (m : Matcher) :
    ofPayload? m.payload = ((Value.ofDraft (Draft.nestingRoom - 1) m.value.toJson.draft).map
      fun read => { m with value := read, changing := false }).toOption := by
  unfold ofPayload? payload
  rw [ofLexemes_compact, ← ofDraft_draft]

end Matcher

end QueryBar
