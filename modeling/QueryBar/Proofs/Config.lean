/-
Names tell sources apart.

`Config.check` refuses a configuration in which a source name occurs twice.  In one that it
accepts, a name belongs to one place.
-/
import Mathlib.Data.List.Nodup
import QueryBar.Config

namespace QueryBar.Config

variable {c : Config} {s t : Source} {i j : Nat}

theorem repeatedName?_eq_none {seen : List String} {ss : List Source} :
    repeatedName? seen ss = none ↔ (ss.map (·.name)).Nodup ∧ ∀ s ∈ ss, s.name ∉ seen := by
  induction ss generalizing seen with
  | nil => simp [repeatedName?]
  | cons s rest ih =>
      unfold repeatedName?
      rw [List.map_cons, List.nodup_cons]
      by_cases hseen : seen.contains s.name = true
      · rw [if_pos hseen]
        simp [List.contains_iff_mem.mp hseen]
      · rw [if_neg hseen, ih]
        have hnew : s.name ∉ seen := fun hmem => hseen (List.contains_iff_mem.mpr hmem)
        constructor
        · rintro ⟨hnodup, hrest⟩
          refine ⟨⟨?_, hnodup⟩, ?_⟩
          · intro hmem
            obtain ⟨t, ht, hname⟩ := List.mem_map.mp hmem
            exact hrest t ht (by simp [hname])
          · intro t ht
            rcases List.mem_cons.mp ht with rfl | ht
            · exact hnew
            · exact fun hmem => hrest t ht (List.mem_cons_of_mem _ hmem)
        · rintro ⟨⟨hfirst, hnodup⟩, hall⟩
          refine ⟨hnodup, ?_⟩
          intro t ht hmem
          rcases List.mem_cons.mp hmem with hname | hmem
          · exact hfirst (hname ▸ List.mem_map_of_mem ht)
          · exact hall t (by simp [ht]) hmem

/-- **A configuration that is accepted names its sources apart.** -/
theorem nodup_names (h : c.check = .ok ()) : (c.sources.map (·.name)).Nodup := by
  unfold check at h
  split at h
  · simp at h
  · rename_i hnone
    exact (repeatedName?_eq_none.mp hnone).1

/-- Sources of one name stand at one place. -/
theorem place_unique (h : (c.sources.map (·.name)).Nodup) (hs : c.sources[i]? = some s)
    (ht : c.sources[j]? = some t) (hname : s.name = t.name) : i = j ∧ s = t := by
  have hi : i < (c.sources.map (·.name)).length := by
    rw [List.length_map]
    exact (List.getElem?_eq_some_iff.mp hs).1
  have hij : i = j := by
    refine (List.getElem?_inj hi h).mp ?_
    rw [List.getElem?_map, List.getElem?_map, hs, ht, Option.map_some, Option.map_some, hname]
  subst hij
  exact ⟨rfl, Option.some.inj (hs.symm.trans ht)⟩

theorem source?_eq_none_iff {name : String} :
    c.source? name = none ↔ ∀ s ∈ c.sources, s.name ≠ name := by
  unfold source?
  rw [List.find?_eq_none]
  simp

/-- What is found by a name is a source of that name. -/
theorem of_source? {name : String} (h : c.source? name = some s) :
    s ∈ c.sources ∧ s.name = name := by
  unfold source? at h
  have hname := List.find?_some h
  exact ⟨List.mem_of_find?_eq_some h, beq_iff_eq.mp hname⟩

/-- What is found by a name stands at its place and has that name. -/
theorem of_sourceAt? {name : String} (h : c.sourceAt? name = some (i, s)) :
    c.sources[i]? = some s ∧ s.name = name := by
  unfold sourceAt? source? at h
  split at h
  · rename_i position t hplace hfound
    obtain ⟨rfl, rfl⟩ := by simpa using h
    obtain ⟨hlt, hname, hearlier⟩ := List.findIdx?_eq_some_iff_getElem.mp hplace
    obtain ⟨hname', j, hj, hget, hearlier'⟩ := List.find?_eq_some_iff_getElem.mp hfound
    -- Both are the first of that name.
    have hplaces : j = position := by
      rcases Nat.lt_trichotomy j position with hless | heq | hmore
      · exact absurd (by simpa [hget] using hname') (hearlier j hless)
      · exact heq
      · exact absurd hname (by simpa using hearlier' position hmore)
    subst hplaces
    exact ⟨by rw [List.getElem?_eq_getElem hlt, hget], by simpa using hname'⟩
  · simp at h

end QueryBar.Config
