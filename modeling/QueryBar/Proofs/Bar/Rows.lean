/-
How a row changes, place by place and as a whole.

A change that moves matchers about moves the open place along with them.  Apart from what it
brings in, no change puts more into a row than there was, so that keys that are apart stay
apart; a matcher that is replaced leaves its key behind.
-/
import Mathlib.Data.List.Nodup
import Mathlib.Data.List.Perm.Subperm
import QueryBar.Proofs.Bar.Changes

namespace QueryBar.RowChange

variable {row : List Matcher} {m : Matcher} {i j a : Nat} {key : String} {e : RowChange}

/-! ### Where matchers go -/

/-- What is put in moves up everything from its place on. -/
theorem getElem?_put (hi : i ≤ row.length) :
    (RowChange.apply row (.put i m))[if i ≤ a then a + 1 else a]? = row[a]? := by
  have hlength : (row.take i).length = i := by rw [List.length_take, Nat.min_eq_left hi]
  show (row.take i ++ m :: row.drop i)[if i ≤ a then a + 1 else a]? = row[a]?
  split
  · rename_i hmoves
    rw [List.getElem?_append_right (by omega), hlength, Nat.succ_sub hmoves,
      List.getElem?_cons_succ, List.getElem?_drop, Nat.add_sub_cancel' hmoves]
  · rename_i hstays
    rw [List.getElem?_append_left (by omega), List.getElem?_take_of_lt (by omega)]

/-- An exchange moves two matchers and no other. -/
theorem getElem?_exchange (hi : i < row.length) (hj : j < row.length) :
    (RowChange.apply row (.exchange i j))[if a = i then j else if a = j then i else a]? =
      row[a]? := by
  show (Bar.exchange row i j)[_]? = _
  unfold Bar.exchange
  rw [List.getElem?_eq_getElem hi, List.getElem?_eq_getElem hj]
  dsimp only
  rw [List.getElem?_set, List.getElem?_set, List.length_set]
  grind

/-- Where keys are apart, a matcher is found at its place. -/
theorem findIdx?_key (hkeys : (row.map (·.key)).Nodup) (hm : row[i]? = some m) :
    row.findIdx? (·.key == m.key) = some i := by
  obtain ⟨hi, rfl⟩ := List.getElem?_eq_some_iff.mp hm
  refine List.findIdx?_eq_some_iff_getElem.mpr ⟨hi, by simp, ?_⟩
  intro j hj hsame
  have hplaces : j < (row.map (·.key)).length := by rw [List.length_map]; omega
  have hkey : (row.map (·.key))[j]? = (row.map (·.key))[i]? := by
    rw [List.getElem?_map, List.getElem?_map, List.getElem?_eq_getElem (by omega),
      List.getElem?_eq_getElem hi, Option.map_some, Option.map_some, beq_iff_eq.mp hsame]
  exact absurd ((List.getElem?_inj hplaces hkeys).mp hkey) (by omega)

/-- Without its last matcher a row is as it was. -/
theorem filter_last (hkeys : (row.map (·.key)).Nodup)
    (hlast : row.getLast?.map (·.key) = some key) :
    row.filter (·.key != key) = row.dropLast := by
  obtain ⟨m, hm, rfl⟩ := Option.map_eq_some_iff.mp hlast
  obtain ⟨before, rfl⟩ := List.getLast?_eq_some_iff.mp hm
  rw [List.map_append, List.map_cons, List.map_nil, List.nodup_append] at hkeys
  have hothers : ∀ n ∈ before, (n.key != m.key) = true := by
    intro n hn
    exact bne_iff_ne.mpr (hkeys.2.2 _ (List.mem_map_of_mem hn) _ (List.mem_singleton_self _))
  rw [List.dropLast_concat, List.filter_append, List.filter_eq_self.mpr hothers]
  simp

/-! ### What is in a row -/

theorem perm_exchange (row : List Matcher) (i j : Nat) : (Bar.exchange row i j).Perm row := by
  unfold Bar.exchange
  split
  · rename_i m n hm hn
    obtain ⟨hi, rfl⟩ := List.getElem?_eq_some_iff.mp hm
    obtain ⟨hj, rfl⟩ := List.getElem?_eq_some_iff.mp hn
    exact List.set_set_perm hi hj
  · exact List.Perm.refl row

/-- There is nothing in a row that was not in it, except for what came in. -/
theorem subperm_apply (row : List Matcher) (h : ∀ taken, e ≠ .take taken) :
    List.Subperm (e.apply row) (e.incoming?.toList ++ row) := by
  cases e with
  | stay => exact List.Subperm.refl row
  | close => exact List.Subperm.refl row
  | opened i => exact List.Subperm.refl row
  | join m => exact (List.perm_append_singleton m row).subperm
  | put i m =>
      have hmiddle : (row.take i ++ m :: row.drop i).Perm (m :: (row.take i ++ row.drop i)) :=
        List.perm_middle
      rw [List.take_append_drop] at hmiddle
      exact hmiddle.subperm
  | replace i m =>
      show List.Subperm (row.set i m) (m :: row)
      by_cases hi : i < row.length
      · have hset : (row.set i m).Perm (m :: row.eraseIdx i) := List.set_perm_cons_eraseIdx hi m
        exact hset.subperm.trans ((List.eraseIdx_sublist row i).cons_cons m).subperm
      · rw [List.set_eq_of_length_le (Nat.le_of_not_lt hi)]
        exact (List.sublist_cons_self m row).subperm
  | remove key => exact List.filter_sublist.subperm
  | exchange i j => exact (perm_exchange row i j).subperm
  | clear => exact List.nil_subperm
  | take taken => exact absurd rfl (h taken)

theorem subperm_map_key_apply (row : List Matcher) (h : ∀ taken, e ≠ .take taken) :
    List.Subperm ((e.apply row).map (·.key))
      (e.incoming?.toList.map (·.key) ++ row.map (·.key)) := by
  obtain ⟨part, hperm, hsublist⟩ := subperm_apply row h
  rw [← List.map_append]
  exact ⟨part.map (·.key), hperm.map _, hsublist.map _⟩

/-- Keys that are apart stay apart if what comes in has another one. -/
theorem nodup_map_key_apply (h : ∀ taken, e ≠ .take taken) (hkeys : (row.map (·.key)).Nodup)
    (hincoming : ∀ m ∈ e.incoming?, m.key ∉ row.map (·.key)) :
    ((e.apply row).map (·.key)).Nodup := by
  have hboth : (e.incoming?.toList.map (·.key) ++ row.map (·.key)).Nodup := by
    cases hm : e.incoming? with
    | none => exact hkeys
    | some m => exact List.nodup_cons.mpr ⟨hincoming m hm, hkeys⟩
  obtain ⟨part, hperm, hsublist⟩ := subperm_map_key_apply row h
  exact hperm.nodup_iff.mp (hboth.sublist hsublist)

theorem mem_of_mem_apply (h : ∀ taken, e ≠ .take taken) (hm : m ∈ e.apply row) :
    e.incoming? = some m ∨ m ∈ row := by
  have hmem := (subperm_apply row h).subset hm
  rw [List.mem_append, Option.mem_toList] at hmem
  exact hmem

/-- A matcher that takes the place of the one with its key leaves the keys as they are. -/
theorem map_key_replace (hplace : row.findIdx? (·.key == m.key) = some i) :
    (RowChange.apply row (.replace i m)).map (·.key) = row.map (·.key) := by
  obtain ⟨hi, hfound, -⟩ := List.findIdx?_eq_some_iff_getElem.mp hplace
  have hplaced : i < (row.map (·.key)).length := by simpa using hi
  have hsame : m.key = (row.map (·.key))[i] := by
    rw [List.getElem_map]
    exact (beq_iff_eq.mp hfound).symm
  show (row.set i m).map (·.key) = _
  rw [List.map_set, hsame, List.set_getElem_self]

end QueryBar.RowChange
