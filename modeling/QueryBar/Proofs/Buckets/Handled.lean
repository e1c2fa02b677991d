/-
What every list of buckets satisfies, whatever has been done to it.

Nothing is asked of those who fill the buckets: categories of one title may come with
different ranks, a definition may contribute as often as it likes and with a different
limit each time, and places may be kept and released at will.  Titles still occur once, no
bucket stands behind one that it outranks, and each bucket is well kept.

Three operations make up all handling, and each of them keeps the invariant: a merge and a
reservation change one bucket or put a new one in, and a release takes some away.  What is
shown needs no history.  It is worked out of the contributions, so any bucket shows each
value once and no more than the largest limit.
-/
import QueryBar.Proofs.Buckets.Merging
import QueryBar.Proofs.Buckets.Shown

namespace QueryBar

/-! ### Agreement -/

theorem Number.same_comm (x y : Number) : x.same y = y.same x := by
  cases x with
  | nan => cases y <;> rfl
  | infinite s =>
      cases y with
      | infinite t => exact Bool.beq_comm
      | nan => rfl
      | finite t n => rfl
  | finite s m =>
      cases y with
      | nan => rfl
      | infinite t => rfl
      | finite t n =>
          by_cases hmn : m = n
          · subst hmn
            simp [same, Bool.beq_comm]
          · have hleft : (m == n) = false := beq_eq_false_iff_ne.mpr hmn
            have hright : (n == m) = false := beq_eq_false_iff_ne.mpr (Ne.symm hmn)
            simp [same, hleft, hright]

theorem Value.agrees_comm (v w : Value) : v.agrees w = w.agrees v := by
  cases v <;> cases w
  case number.number x y => exact Number.same_comm x y
  case text.text s t => exact Bool.beq_comm
  case date.date s t => exact Bool.beq_comm
  all_goals rfl

theorem Suggestion.agrees_comm (s t : Suggestion) : s.agrees t = t.agrees s :=
  Value.agrees_comm ..

/-! ### One bucket -/

namespace Bucket

/-- The contributions ascend and are within their limits, and of them the bucket shows each value
once and no more than the largest limit. -/
structure WellKept (b : Bucket) : Prop extends b.Proper where
  distinct : b.options.Pairwise fun s t => s.agrees t = false ∧ t.agrees s = false
  /-- A bound of all limits is one of what is shown; the largest limit is such a bound. -/
  limited : ∀ n, (∀ d ∈ b.contributions, ∃ m, m ≤ n ∧ d.limit = some m) → b.options.length ≤ n

variable {b : Bucket}

theorem pairwise_options (b : Bucket) :
    b.options.Pairwise fun s t => s.agrees t = false ∧ t.agrees s = false := by
  have hdistinct : b.options.Pairwise fun s t => ¬ s.agrees t = true := by
    rw [options_eq]
    exact (Suggestion.pairwise_joinDistinct _ List.Pairwise.nil).sublist (sublist_capped ..)
  refine hdistinct.imp ?_
  intro s t hst
  rw [Bool.not_eq_true] at hst
  exact ⟨hst, (Suggestion.agrees_comm t s).trans hst⟩

theorem length_options_le {n : Nat}
    (h : ∀ d ∈ b.contributions, ∃ m, m ≤ n ∧ d.limit = some m) : b.options.length ≤ n := by
  by_cases hcs : b.contributions = []
  · rw [b.cutToLargest.idle hcs]
    exact Nat.zero_le n
  · obtain ⟨k, hk, hcap⟩ := Contribution.exists_cap_le hcs h
    rw [options_eq, hcap]
    exact (List.length_take_le ..).trans hk

theorem Proper.wellKept (h : b.Proper) : b.WellKept :=
  ⟨h, b.pairwise_options, fun _ => length_options_le⟩

end Bucket

namespace Buckets

/-! ### Handling -/

/-- What is done to a list of buckets. -/
inductive Handling where
  | file (x : Filing)
  | release (title : String)

def handle (bs : Buckets) : Handling → Buckets
  | .file x => bs.file x
  | .release title => bs.release title

/-- The buckets after all that was done, one thing after the other. -/
def handled (calls : List Handling) : Buckets := calls.foldl handle []

/-- Titles occur once, no bucket stands behind one it outranks, and each is well kept. -/
structure WellKept (bs : Buckets) : Prop where
  titles : (bs.map (·.title)).Nodup
  ranked : bs.Pairwise fun a b => ¬ b.rank.outranks a.rank = true
  each : ∀ b ∈ bs, b.WellKept

variable {bs : Buckets} {b : Bucket}

theorem wellKept_nil : WellKept [] := ⟨List.nodup_nil, List.Pairwise.nil, by simp⟩

/-! ### One thing done -/

/-- A bucket with a new title finds its place. -/
theorem WellKept.insert (h : WellKept bs) (hb : b.Proper) (hnew : bs.bucket? b.title = none) :
    WellKept (insert b bs) where
  titles := nodup_titles_insert h.titles hnew
  ranked := by
    refine pairwise_insert ?_ (fun d _ hout => hout) h.ranked
    intro d _ hout
    refine ⟨Rank.outranks_asymm hout, ?_⟩
    -- What does not outrank `d` cannot outrank a bucket that does.
    exact fun e hde => Rank.not_outranks_trans hde (Rank.outranks_asymm hout)
  each := by
    intro d hd
    rcases mem_insert.mp hd with rfl | hd
    · exact hb.wellKept
    · exact h.each d hd

/-- Titles and ranks stay as they are when something is contributed to a bucket. -/
theorem WellKept.contribute (h : WellKept bs) (title : String) (origin : Nat)
    (options : List Suggestion) (limit : Option Nat) :
    WellKept (bs.modify title (·.contribute origin options limit)) := by
  have hsame := map_category_modify (fun b => Bucket.category_contribute b origin options limit)
    bs title
  refine ⟨?_, ?_, ?_⟩
  · exact map_title_of_category hsame ▸ h.titles
  · have hranked : (bs.map (·.category)).Pairwise fun a b => ¬ b.rank.outranks a.rank = true :=
      List.pairwise_map.mpr h.ranked
    rw [← hsame] at hranked
    exact List.pairwise_map.mp hranked
  · intro b hb
    rcases mem_modify hb with hold | ⟨a, ha, rfl⟩
    · exact h.each b hold
    · exact ((h.each a ha).toProper.contribute origin options limit).wellKept

theorem WellKept.file (h : WellKept bs) (x : Filing) : WellKept (bs.file x) := by
  cases x with
  | deliver d =>
      show WellKept (bs.merge d.category d.origin d.options d.limit)
      unfold merge
      split
      · exact h.contribute ..
      · rename_i hnone
        exact h.insert ((Bucket.proper_empty _).contribute ..)
          (by simpa [Bucket.empty] using hnone)
  | reserve c =>
      show WellKept (bs.reserve c)
      unfold reserve
      split
      · exact h
      · rename_i hnone
        exact h.insert (Bucket.proper_empty c) (by simpa [Bucket.empty] using hnone)

theorem WellKept.release (h : WellKept bs) (title : String) : WellKept (bs.release title) where
  titles := h.titles.sublist (List.filter_sublist.map _)
  ranked := h.ranked.sublist List.filter_sublist
  each := forall_release h.each title

/-- **Nothing that is done to buckets breaks the invariant.** -/
theorem WellKept.handle (h : WellKept bs) (x : Handling) : WellKept (bs.handle x) := by
  cases x with
  | file x => exact h.file x
  | release title => exact h.release title

/-- A release takes away the buckets with the title that show nothing. -/
theorem mem_release {title : String} :
    b ∈ bs.release title ↔ b ∈ bs ∧ (b.title = title → b.options ≠ []) := by
  unfold release
  rw [List.mem_filter]
  simp [Bucket.isPlaceholder, imp_iff_not_or]

/-! ### All that was done -/

private theorem WellKept.handles (h : WellKept bs) (calls : List Handling) :
    WellKept (calls.foldl Buckets.handle bs) := by
  induction calls generalizing bs with
  | nil => exact h
  | cons x rest ih => exact ih (h.handle x)

/-- **Whatever has been filed and released: titles occur once, no bucket stands behind one it
outranks, in each the contributions ascend and are within their limits, each value is shown once,
and no more than the largest limit is shown.  One more release removes a bucket only if that shows
nothing, and leaves the others in their order.** -/
theorem wellKept_handled (calls : List Handling) :
    WellKept (handled calls) ∧ ∀ title, ((handled calls).release title).Sublist (handled calls) ∧
      ∀ b, b ∈ (handled calls).release title ↔
        b ∈ handled calls ∧ (b.title = title → b.options ≠ []) :=
  ⟨wellKept_nil.handles calls, fun _ => ⟨List.filter_sublist, fun _ => mem_release⟩⟩

/-- Ranks that contradict each other, a definition that contributes again with another limit, a
limit of nought, and a place that is released. -/
example :
    let texts (ts : List String) : List Suggestion := ts.map fun t => ⟨"source", .text t, t⟩
    (handled
      [.file (.deliver ⟨⟨"Sizes", 0, 1⟩, 0, texts ["small", "large"], some 1⟩),
        .file (.reserve ⟨"Colours", 0, 0⟩), .file (.reserve ⟨"Shapes", 2, 2⟩),
        .file (.deliver ⟨⟨"Sizes", 9, 9⟩, 0, texts ["small", "large"], some 2⟩),
        .file (.deliver ⟨⟨"Colours", 5, 5⟩, 3, texts ["red"], some 0⟩),
        .release "Shapes", .release "Sizes"]).map
        (fun b => (b.title, b.rank, b.options.map (·.text)))
      = [("Colours", ⟨0, 0⟩, []), ("Sizes", ⟨0, 1⟩, ["small", "large"])] := by decide

end Buckets

end QueryBar
