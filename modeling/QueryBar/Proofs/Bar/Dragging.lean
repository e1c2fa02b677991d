/-
Dragging one matcher onto another.

A matcher can be picked up whenever it is in the row, and any other matcher will have it.  Whether
dropping it does anything is decided by its value: the payload has to be read again before the two
can change places, and that goes wrong for a number that is not finite.
-/
import QueryBar.Bar.Drag
import QueryBar.Proofs.Bar.Rows
import QueryBar.Proofs.Matcher.Payload

namespace QueryBar.Bar

variable {b : Bar} {m n : Matcher} {i j : Nat}

/-! ### Picking up -/

theorem drag_of_mem (hkeys : (b.matchers.map (·.key)).Nodup) (hm : b.matchers[i]? = some m) :
    b.drag m.key = .ok ⟨dragMark ++ m.key, m.payload⟩ := by
  obtain ⟨hi, hget⟩ := List.getElem?_eq_some_iff.mp hm
  have hplace := RowChange.findIdx?_key hkeys hm
  have hfound : b.matcher? m.key = some m := by
    unfold matcher?
    rw [List.find?_eq_some_iff_getElem]
    obtain ⟨_, -, hbefore⟩ := List.findIdx?_eq_some_iff_getElem.mp hplace
    exact ⟨by simp, i, hi, hget, fun k hk => by simpa using hbefore k hk⟩
  unfold drag
  rw [hfound]

theorem isDragType_mark (key : String) : isDragType (dragMark ++ key) = true := by
  unfold isDragType
  rw [String.toList_append, List.isPrefixOf_iff_prefix]
  exact List.prefix_append ..

/-- What a matcher is offered, it takes from any other; keys are told apart although one may begin
with the other. -/
theorem acceptsDrop_mark (hn : b.matchers[j]? = some n) (key : String) :
    b.acceptsDrop n.key [dragMark ++ key] = decide (key ≠ n.key) := by
  have hplace : (b.placeOf? n.key).isSome = true := by
    unfold placeOf?
    rw [List.findIdx?_isSome, List.any_eq_true]
    exact ⟨n, List.mem_of_getElem? hn, by simp⟩
  have hown : dragMark ++ n.key = dragMark ++ key ↔ key = n.key := by
    rw [String.append_right_inj, eq_comm]
  unfold acceptsDrop
  rw [hplace, List.any_cons, isDragType_mark, List.contains_cons]
  by_cases hkey : key = n.key
  · simp [hkey]
  · have hdiffers : ¬ dragMark ++ n.key = dragMark ++ key := fun h => hkey (hown.mp h)
    simp [hkey, hdiffers]

/-! ### Dropping -/

/-- Two matchers that change places, and nothing else that moves. -/
theorem getElem?_swap (hkeys : (b.matchers.map (·.key)).Nodup) (hm : b.matchers[i]? = some m)
    (hn : b.matchers[j]? = some n) (hij : i ≠ j) :
    (b.swap n.key m.key).2 = true ∧ ∀ a, (b.swap n.key m.key).1.matchers[a]? =
      if a = i then some n else if a = j then some m else b.matchers[a]? := by
  have hi : i < b.matchers.length := (List.getElem?_eq_some_iff.mp hm).1
  have hj : j < b.matchers.length := (List.getElem?_eq_some_iff.mp hn).1
  unfold swap placeOf?
  rw [RowChange.findIdx?_key hkeys hn, RowChange.findIdx?_key hkeys hm]
  refine ⟨rfl, fun a => ?_⟩
  show (RowChange.apply b.matchers (.exchange j i))[a]? = _
  split
  · subst a
    have hmoved := RowChange.getElem?_exchange hj hi (a := j)
    rw [if_pos rfl, hn] at hmoved
    exact hmoved
  · split
    · subst a
      have hmoved := RowChange.getElem?_exchange hj hi (a := i)
      rw [if_neg hij, if_pos rfl, hm] at hmoved
      exact hmoved
    · rename_i hai haj
      have hstays := RowChange.getElem?_exchange hj hi (a := a)
      rw [if_neg haj, if_neg hai] at hstays
      exact hstays

/-- What is dropped is found again by its key alone. -/
theorem drop_payload_of_hasSpelling (h : m.value.HasSpelling) (target key : String) :
    b.drop target (dragMark ++ key) m.payload = b.swap target m.key := by
  obtain ⟨read, hread⟩ := Value.exists_ofDraft h (Json.Draft.nestingRoom - 1)
  unfold drop
  rw [isDragType_mark, if_pos rfl, Matcher.ofPayload?_payload, hread]
  rfl

/-- **A matcher whose value has no spelling can be picked up, but never put down.** -/
theorem drop_payload_of_not_hasSpelling (h : ¬ m.value.HasSpelling) (target key : String) :
    b.drop target (dragMark ++ key) m.payload = (b, false) := by
  unfold drop
  rw [isDragType_mark, if_pos rfl, Matcher.ofPayload?_payload, Value.ofDraft_of_not_hasSpelling h]
  rfl

/-- **A matcher that is dragged onto another changes places with it exactly if its value can be
spelled**, that is unless it is a number that is not finite. -/
theorem drag_drop_exchanges_iff (hkeys : (b.matchers.map (·.key)).Nodup)
    (hm : b.matchers[i]? = some m) (hn : b.matchers[j]? = some n) (hother : m.key ≠ n.key) :
    ∃ d, b.drag m.key = .ok d ∧ b.acceptsDrop n.key [d.type] = true ∧
      b.acceptsDrop m.key [d.type] = false ∧
      (((b.drop n.key d.type d.data).2 = true ∧
          ∀ a, (b.drop n.key d.type d.data).1.matchers[a]? =
            if a = i then some n else if a = j then some m else b.matchers[a]?) ↔
        m.value.HasSpelling) := by
  have hij : i ≠ j := by
    rintro rfl
    rw [hm] at hn
    exact hother (congrArg _ (Option.some.inj hn))
  refine ⟨_, drag_of_mem hkeys hm, ?_, ?_, ⟨fun hdone => ?_, fun hspelling => ?_⟩⟩
  · rw [acceptsDrop_mark hn]
    exact decide_eq_true hother
  · rw [acceptsDrop_mark hm]
    exact decide_eq_false fun h => h rfl
  · by_contra hunspelled
    rw [drop_payload_of_not_hasSpelling hunspelled] at hdone
    exact absurd hdone.1 Bool.false_ne_true
  · rw [drop_payload_of_hasSpelling hspelling]
    exact getElem?_swap hkeys hm hn hij

/-- A source of numbers: a text that can be read as one stands for it. -/
def sizes : Source where
  name := "size"
  title := "Sizes"
  comparisons := ["="]
  definitions := [.test {
    test := .predicate fun text => (Number.ofText? text).isSome
    derived := fun text => .number ((Number.ofText? text).getD (.zero false)) }]

/-- A bar into which sizes have been typed, one after the other. -/
def measured (texts : List String) : Bar :=
  texts.foldl (fun b text => ((b.input text).1.key { key := .enter }).1)
    (Bar.new (.ofSources [sizes]) 0)

/-- The matcher of a size. -/
def size (key text : String) (x : Number) : Matcher :=
  { key, operator := .and, comparison := "=", source := "size", value := .number x, text }

/-- What is nearest to a tenth. -/
def tenth : Number := .finite false ⟨7205759403792794, -56, by decide⟩

def two : Number := .finite false ⟨4503599627370496, -51, by decide⟩

theorem drag_drop_exchanges_iff_sizes :
    let b := measured ["0.1", "2"]
    b.matchers = [size "m1" "0.1" tenth, size "m2" "2" two] ∧
      ∃ d, b.drag "m1" = .ok d ∧ (b.drop "m2" d.type d.data).2 = true ∧
        (b.drop "m2" d.type d.data).1.matchers = [size "m2" "2" two, size "m1" "0.1" tenth] := by
  intro b
  have hrow : b.matchers = [size "m1" "0.1" tenth, size "m2" "2" two] := by decide +kernel
  have hkeys : (b.matchers.map (·.key)).Nodup := by rw [hrow]; decide
  have hfirst : b.matchers[0]? = some (size "m1" "0.1" tenth) := by rw [hrow]; rfl
  have hsecond : b.matchers[1]? = some (size "m2" "2" two) := by rw [hrow]; rfl
  have hother : (size "m1" "0.1" tenth).key ≠ (size "m2" "2" two).key := by decide
  obtain ⟨d, hdrag, -, -, hdrop⟩ := drag_drop_exchanges_iff hkeys hfirst hsecond hother
  obtain ⟨hdone, hplaces⟩ := hdrop.mpr trivial
  refine ⟨hrow, d, hdrag, hdone, List.ext_getElem? fun a => ?_⟩
  refine (hplaces a).trans ?_
  rw [hrow]
  match a with
  | 0 => rfl
  | 1 => rfl
  | _ + 2 => rfl

/-- **What is not a number is picked up and accepted, and dropping it does nothing.** -/
theorem drop_ignores_nan :
    let b := measured ["nan", "2"]
    b.matchers = [size "m1" "NaN" .nan, size "m2" "2" two] ∧
      ∃ d, b.drag "m1" = .ok d ∧ b.acceptsDrop "m2" [d.type] = true ∧
        b.drop "m2" d.type d.data = (b, false) := by
  intro b
  have hrow : b.matchers = [size "m1" "NaN" .nan, size "m2" "2" two] := by decide +kernel
  have hkeys : (b.matchers.map (·.key)).Nodup := by rw [hrow]; decide
  have hfirst : b.matchers[0]? = some (size "m1" "NaN" .nan) := by rw [hrow]; rfl
  have hsecond : b.matchers[1]? = some (size "m2" "2" two) := by rw [hrow]; rfl
  refine ⟨hrow, _, drag_of_mem hkeys hfirst, ?_, drop_payload_of_not_hasSpelling id ..⟩
  exact (acceptsDrop_mark hsecond _).trans (decide_eq_true (by decide))

end QueryBar.Bar
