/-
Settings survive their own JSON.

The reader of a member has to take what the writer puts there: for every kind of member there is a
lemma that it is read back, for optional members and lists one that takes this from what they hold.
A record is written as an object, whose members have different names, so that each field is read
from its own member and none is missing (`Fields.exists_hold`).  The sources within the
settings are such records themselves.
-/
import QueryBar.Proofs.Json.Integers
import QueryBar.Proofs.Json.ReadBack
import QueryBar.Settings.Codec

namespace QueryBar

open Json

variable {α : Type} {room : Nat}

/-! ### Members that hold one value -/

theorem readsBack_text (room : Nat) (s : String) : ReadsBack room textOfJson? (.string s) s :=
  readsBack_of_json? (by simp [draft, Draft.json?]) (show textOfJson? (.string s) = some s from rfl)

theorem readsBack_bool (room : Nat) (b : Bool) : ReadsBack room boolOfJson? (.bool b) b :=
  readsBack_of_json? (by simp [draft, Draft.json?]) (show boolOfJson? (.bool b) = some b from rfl)

/-- An integer of 64 bits stands for itself. -/
theorem json?_integer {i : Int} (h : FitsSigned i ∨ FitsUnsigned i) :
    (Json.integer i).draft.json? room = some (.integer i) := by
  simp [draft, Draft.json?, Numeral.value?_ofInt h]

theorem readsBack_uint64 (room : Nat) (n : UInt64) :
    ReadsBack room uint64OfJson? (.nat n.toNat) n := by
  have hfits : FitsUnsigned n.toNat := by
    have hlt := n.toNat_lt
    omega
  refine readsBack_of_json? (json?_integer (.inr hfits)) ?_
  unfold uint64OfJson?
  simp [hfits]

theorem readsBack_int64 (room : Nat) (i : Int64) :
    ReadsBack room int64OfJson? (.integer i.toInt) i := by
  have hfits : FitsSigned i.toInt := by
    have hle := i.le_toInt
    have hlt := i.toInt_lt
    omega
  refine readsBack_of_json? (json?_integer (.inl hfits)) ?_
  unfold int64OfJson?
  simp [hfits]

/-- One of several names. -/
theorem readsBack_named {ofName? : String → Option α} {name : String} {a : α} (room : Nat)
    (h : ofName? name = some a) : ReadsBack room (namedOfJson? ofName?) (.string name) a :=
  readsBack_of_json? (by simp [draft, Draft.json?])
    (show namedOfJson? ofName? (.string name) = some a from h)

theorem OperatorMode.ofName?_name (mode : OperatorMode) : ofName? mode.name = some mode := by
  cases mode <;> decide

theorem LimitPolicy.ofName?_name (policy : LimitPolicy) : ofName? policy.name = some policy := by
  cases policy <;> decide

/-! ### Optional members and lists -/

/-- A value that may be missing is read back if it is when it is there, and is not taken for a
missing one. -/
theorem readsBack_optional {read? : Json → Option α} {write : α → Json} (hnull : read? .null = none)
    (h : ∀ a, ReadsBack room read? (write a) a) (o : Option α) :
    ReadsBack room (optionOfJson? read?) (.optional write o) o := by
  cases o with
  | none => exact readsBack_of_json? (k := .null) (by simp [Json.optional, draft, Draft.json?]) rfl
  | some a =>
      obtain ⟨k, hk, hread⟩ := (h a).exists_json?
      refine readsBack_of_json? hk ?_
      unfold optionOfJson?
      split
      · rw [hnull] at hread
        contradiction
      · rw [hread]
        rfl

theorem readsBack_optionalNat (room : Nat) (n : Option UInt64) :
    ReadsBack room (optionOfJson? uint64OfJson?) (optionalNat n) n :=
  readsBack_optional rfl (readsBack_uint64 room) n

theorem readsBack_texts (hroom : 1 < room) (texts : List String) :
    ReadsBack room (listOfJson? textOfJson?) (textsJson texts) texts :=
  readsBack_array hroom (fun _ => rfl) fun s _ => readsBack_text (room - 1) s

/-! ### Records -/

/-- A field is read from the member of its name. -/
def Fields.Hold (fields : Fields) (room : Nat) (members : List (String × Json)) : Prop :=
  ∀ (name : String) (place : Nat) {α : Type} (missing : α) {read? : Json → Option α} {j : Json}
    {a : α}, (name, j) ∈ members → ReadsBack room read? j a →
      fields.get? name place missing read? = some a

/-- **A record that is written as an object is read field by field.** -/
theorem Fields.exists_hold {members : List (String × Json)} (count : Nat) (hroom : 1 < room)
    (h : ∀ member ∈ members, ∃ k, member.2.draft.json? (room - 1) = some k)
    (hnodup : (members.map Prod.fst).Nodup) :
    ∃ j fields, (Json.object members).draft.json? room = some j ∧
      Fields.ofJson? count j = some fields ∧ fields.Hold (room - 1) members := by
  obtain ⟨read, hread, hown⟩ := exists_object hroom h hnodup
  refine ⟨_, _, hread, rfl, ?_⟩
  intro name place α missing read? j a hmember hback
  obtain ⟨k, hk, hvalue⟩ := hback.exists_json?
  have hlookup : read.lookup name = some k := (hown _ hmember).trans hk
  unfold Fields.get?
  dsimp only
  rw [hlookup]
  exact hvalue

/-- A reader that comes to a field goes on with what was written for it. -/
theorem Fields.Hold.bind {β : Type} {fields : Fields} {members : List (String × Json)}
    {read? : Json → Option α} {missing a : α} {j : Json} {next : α → Option β} {b : β}
    (hold : fields.Hold room members) (name : String) (place : Nat)
    (hmember : (name, j) ∈ members) (hback : ReadsBack room read? j a) (h : next a = some b) :
    (fields.get? name place missing read? >>= next) = some b :=
  Option.bind_eq_some_iff.mpr ⟨a, hold name place missing hmember hback, h⟩

namespace SourceSpec

/-- The members that a source is written with. -/
def members (s : SourceSpec) : List (String × Json) :=
  [("name", .string s.name), ("title", .string s.title), ("comparisons", textsJson s.comparisons),
    ("precedence", .optional (fun p => .integer p.toInt) s.precedence),
    ("selection_limit", optionalNat s.selectionLimit), ("functional", .bool s.functional),
    ("items", textsJson s.items), ("pattern", .optional .string s.pattern),
    ("ignore_case", .bool s.ignoreCase), ("item_limit", optionalNat s.itemLimit)]

/-- **A source is read back**, with every field as it was. -/
theorem readsBack (hroom : 2 < room) (s : SourceSpec) :
    ReadsBack room SourceSpec.ofJson? s.toJson s := by
  have hinner : 1 < room - 1 := by omega
  have hname := readsBack_text (room - 1) s.name
  have htitle := readsBack_text (room - 1) s.title
  have hcomparisons := readsBack_texts hinner s.comparisons
  have hprecedence := readsBack_optional rfl (readsBack_int64 (room - 1)) s.precedence
  have hselectionLimit := readsBack_optionalNat (room - 1) s.selectionLimit
  have hfunctional := readsBack_bool (room - 1) s.functional
  have hitems := readsBack_texts hinner s.items
  have hpattern := readsBack_optional rfl (readsBack_text (room - 1)) s.pattern
  have hignoreCase := readsBack_bool (room - 1) s.ignoreCase
  have hitemLimit := readsBack_optionalNat (room - 1) s.itemLimit
  have hreadable : ∀ member ∈ s.members, ∃ k, member.2.draft.json? (room - 1) = some k := by
    simp only [members, List.forall_mem_cons]
    exact ⟨hname.readable, htitle.readable, hcomparisons.readable, hprecedence.readable,
      hselectionLimit.readable, hfunctional.readable, hitems.readable, hpattern.readable,
      hignoreCase.readable, hitemLimit.readable, List.forall_mem_nil _⟩
  have hnodup : (s.members.map Prod.fst).Nodup := by simp [members]
  obtain ⟨j, fields, hj, hfields, hold⟩ := Fields.exists_hold 10 (by omega) hreadable hnodup
  refine readsBack_of_json? hj ?_
  refine Option.bind_eq_some_iff.mpr ⟨fields, hfields, ?_⟩
  refine hold.bind "name" 0 (by simp [members]) hname ?_
  refine hold.bind "title" 1 (by simp [members]) htitle ?_
  refine hold.bind "comparisons" 2 (by simp [members]) hcomparisons ?_
  refine hold.bind "precedence" 3 (by simp [members]) hprecedence ?_
  refine hold.bind "selection_limit" 4 (by simp [members]) hselectionLimit ?_
  refine hold.bind "functional" 5 (by simp [members]) hfunctional ?_
  refine hold.bind "items" 6 (by simp [members]) hitems ?_
  refine hold.bind "pattern" 7 (by simp [members]) hpattern ?_
  refine hold.bind "ignore_case" 8 (by simp [members]) hignoreCase ?_
  refine hold.bind "item_limit" 9 (by simp [members]) hitemLimit ?_
  rfl

end SourceSpec

namespace Settings

/-- The members that settings are written with. -/
def members (s : Settings) : List (String × Json) :=
  [("listen", .string s.listen), ("default_comparison", .string s.defaultComparison),
    ("and", .string s.andSymbol), ("or", .string s.orSymbol),
    ("operators", .string s.mode.name), ("default_item_limit", .nat s.itemLimit.toNat),
    ("search_start_length", .nat s.startLength.toNat), ("promise_delay_ms", .nat s.delay.toNat),
    ("show_when_searching", .bool s.showWhenSearching),
    ("allow_free_text", .bool s.allowFreeText), ("limit_policy", .string s.limitPolicy.name),
    ("sources", .array (s.sources.map SourceSpec.toJson))]

/-- **Settings are read back**, with every field as it was. -/
theorem readsBack (hroom : 4 < room) (s : Settings) :
    ReadsBack room Settings.ofJson? s.toJson s := by
  have hlisten := readsBack_text (room - 1) s.listen
  have hdefaultComparison := readsBack_text (room - 1) s.defaultComparison
  have handSymbol := readsBack_text (room - 1) s.andSymbol
  have horSymbol := readsBack_text (room - 1) s.orSymbol
  have hmode := readsBack_named (room - 1) s.mode.ofName?_name
  have hitemLimit := readsBack_uint64 (room - 1) s.itemLimit
  have hstartLength := readsBack_uint64 (room - 1) s.startLength
  have hdelay := readsBack_uint64 (room - 1) s.delay
  have hshowWhenSearching := readsBack_bool (room - 1) s.showWhenSearching
  have hallowFreeText := readsBack_bool (room - 1) s.allowFreeText
  have hlimitPolicy := readsBack_named (room - 1) s.limitPolicy.ofName?_name
  have hsources : ReadsBack (room - 1) (listOfJson? SourceSpec.ofJson?)
      (.array (s.sources.map SourceSpec.toJson)) s.sources :=
    readsBack_array (by omega) (fun _ => rfl) fun source _ => source.readsBack (by omega)
  have hreadable : ∀ member ∈ s.members, ∃ k, member.2.draft.json? (room - 1) = some k := by
    simp only [members, List.forall_mem_cons]
    exact ⟨hlisten.readable, hdefaultComparison.readable, handSymbol.readable, horSymbol.readable,
      hmode.readable, hitemLimit.readable, hstartLength.readable, hdelay.readable,
      hshowWhenSearching.readable, hallowFreeText.readable, hlimitPolicy.readable,
      hsources.readable, List.forall_mem_nil _⟩
  have hnodup : (s.members.map Prod.fst).Nodup := by simp [members]
  obtain ⟨j, fields, hj, hfields, hold⟩ := Fields.exists_hold 12 (by omega) hreadable hnodup
  refine readsBack_of_json? hj ?_
  refine Option.bind_eq_some_iff.mpr ⟨fields, hfields, ?_⟩
  refine hold.bind "listen" 0 (by simp [members]) hlisten ?_
  refine hold.bind "default_comparison" 1 (by simp [members]) hdefaultComparison ?_
  refine hold.bind "and" 2 (by simp [members]) handSymbol ?_
  refine hold.bind "or" 3 (by simp [members]) horSymbol ?_
  refine hold.bind "operators" 4 (by simp [members]) hmode ?_
  refine hold.bind "default_item_limit" 5 (by simp [members]) hitemLimit ?_
  refine hold.bind "search_start_length" 6 (by simp [members]) hstartLength ?_
  refine hold.bind "promise_delay_ms" 7 (by simp [members]) hdelay ?_
  refine hold.bind "show_when_searching" 8 (by simp [members]) hshowWhenSearching ?_
  refine hold.bind "allow_free_text" 9 (by simp [members]) hallowFreeText ?_
  refine hold.bind "limit_policy" 10 (by simp [members]) hlimitPolicy ?_
  refine hold.bind "sources" 11 (by simp [members]) hsources ?_
  rfl

/-- What is written for settings is read as a JSON value. -/
theorem exists_read? (s : Settings) :
    ∃ j, Json.read? s.text = some j ∧ Settings.ofJson? j = some s := by
  obtain ⟨j, hj, hread⟩ := (s.readsBack (show 4 < Draft.nestingRoom by decide)).exists_json?
  refine ⟨j, ?_, hread⟩
  unfold Json.read? text
  rw [ofLexemes_compact]
  exact hj

/-- **Settings survive their own JSON.**  The text that is written for them is read as the same
settings, whatever is in them, and so it makes the same configuration or fails in the same way. -/
theorem text_round_trips (s : Settings) :
    Settings.ofText? s.text = some s ∧
      (Settings.ofText? s.text).map Settings.toConfig = some s.toConfig := by
  obtain ⟨j, hj, hread⟩ := s.exists_read?
  have hsettings : Settings.ofText? s.text = some s := by
    unfold ofText?
    rw [hj, Option.bind_some, hread]
  exact ⟨hsettings, by rw [hsettings, Option.map_some]⟩

end Settings

end QueryBar
