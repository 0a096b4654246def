import Mathlib.Tactic
import Screener.Metrics

namespace Screener

namespace Histogram

/-- What is not above a bound is not above the bounds behind it. -/
def Ascending (bs : List Double) : Prop :=
  bs.Pairwise fun a b => ∀ x : Double, atMost x a = true → atMost x b = true

theorem atMost_iff (x b : Double) : atMost x b = true ↔ x.steps ≤ b.steps := by
  rw [atMost, Binary.compareValue, bne_iff_ne, ne_eq, compare_gt_iff_gt, not_lt]

theorem ascending_bounds : Ascending bounds := by
  have hsteps : bounds.Pairwise fun a b => a.steps ≤ b.steps := by decide +kernel
  refine hsteps.imp fun hab x hx => ?_
  rw [atMost_iff] at hx ⊢
  exact hx.trans hab

theorem length_place (x : Double) (bs : List Double) (ns : List ℕ) :
    (place x bs ns).length = ns.length := by
  fun_induction place x bs ns with
  | case1 => rfl
  | case2 b bs n ns _ ih => rw [List.length_cons, ih, List.length_cons]
  | case3 => rfl

theorem running_succ (before : ℕ) (ns : List ℕ) :
    running (before + 1) ns = (running before ns).map (· + 1) := by
  induction ns generalizing before with
  | nil => rfl
  | cons n ns ih =>
    rw [running, running, List.map_cons, ← ih, Nat.add_right_comm]

/-- One more observation is one more in the running sums at the bounds that it is not above. -/
theorem running_place {x : Double} {bs : List Double} (hbs : Ascending bs) {ns : List ℕ}
    (hlen : ns.length = bs.length) {f : Double → ℕ} {before : ℕ}
    (h : running before ns = bs.map f) :
    running before (place x bs ns) = bs.map fun b => f b + if atMost x b then 1 else 0 := by
  induction bs generalizing ns before with
  | nil =>
    rw [List.length_nil, List.length_eq_zero_iff] at hlen
    rw [hlen]
    rfl
  | cons b bs ih =>
    obtain ⟨n, ns, rfl⟩ := List.exists_cons_of_length_eq_add_one hlen
    obtain ⟨hfirst, hmore⟩ := List.pairwise_cons.mp hbs
    obtain ⟨hhead, htail⟩ := List.cons.inj h
    by_cases hx : atMost x b = true
    · have hall : bs.map (fun b => f b + if atMost x b then 1 else 0) = bs.map fun b => f b + 1 :=
        List.map_congr_left fun b' hb' => by rw [if_pos (hfirst b' hb' x hx)]
      have hlater : running (before + n + 1) ns = bs.map fun b => f b + 1 := by
        rw [running_succ, htail, List.map_map]
        rfl
      rw [place, if_pos hx, running, List.map_cons, if_pos hx, hall, ← hlater, ← hhead, add_assoc]
    · rw [place, if_neg hx, running, List.map_cons, if_neg hx, hhead, add_zero, ← hhead,
        ih hmore (Nat.succ.inj hlen) htail]

/-- The histogram of some observations. -/
structure Holds (h : Histogram) (seen : List Double) : Prop where
  length : h.counts.length = bounds.length
  buckets : running 0 h.counts = bounds.map fun b => seen.countP fun x => atMost x b
  total : h.total = seen.length

theorem holds_empty : empty.Holds [] where
  length := List.length_map _
  buckets := by decide +kernel
  total := rfl

theorem Holds.observe {h : Histogram} {seen : List Double} (hh : h.Holds seen) (x : Double) :
    (h.observe x).Holds (seen ++ [x]) where
  length := (length_place x bounds h.counts).trans hh.length
  buckets := by
    rw [Histogram.observe, running_place ascending_bounds hh.length hh.buckets]
    refine List.map_congr_left fun b _ => ?_
    rw [List.countP_append, List.countP_singleton]
  total := by
    rw [Histogram.observe, hh.total, List.length_append, List.length_singleton]

theorem Holds.cumulative_eq {h : Histogram} {seen : List Double} (hh : h.Holds seen) :
    h.cumulative = bounds.map fun b => (b, seen.countP fun x => atMost x b) := by
  rw [cumulative, hh.buckets, List.map_prod_left_eq_zip]

end Histogram

namespace Metrics

def Sorted (counters : List (String × ℕ)) : Prop := counters.Pairwise fun a b => a.1 < b.1

def countIn (counters : List (String × ℕ)) (label : String) : ℕ :=
  ((counters.find? (·.1 = label)).map (·.2)).getD 0

theorem mem_increment {label : String} {counters : List (String × ℕ)} {e : String × ℕ}
    (h : e ∈ increment label counters) : e.1 = label ∨ e ∈ counters := by
  fun_induction increment label counters with
  | case1 => exact .inl (by rw [List.mem_singleton.mp h])
  | case2 =>
    rcases List.mem_cons.mp h with rfl | h
    · exact .inl rfl
    · exact .inr h
  | case3 =>
    rcases List.mem_cons.mp h with rfl | h
    · exact .inl rfl
    · exact .inr (List.mem_cons_of_mem _ h)
  | case4 l n rest _ _ ih =>
    rcases List.mem_cons.mp h with rfl | h
    · exact .inr List.mem_cons_self
    · exact (ih h).imp_right (List.mem_cons_of_mem _)

theorem Sorted.increment {counters : List (String × ℕ)} (h : Sorted counters) (label : String) :
    Sorted (Metrics.increment label counters) := by
  fun_induction Metrics.increment label counters with
  | case1 => exact List.pairwise_singleton _ _
  | case2 l n rest hlt =>
    refine List.pairwise_cons.mpr ⟨fun e he => ?_, h⟩
    rcases List.mem_cons.mp he with rfl | he
    · exact hlt
    · exact String.lt_trans hlt ((List.pairwise_cons.mp h).1 e he)
  | case3 n rest _ => exact List.pairwise_cons.mpr (List.pairwise_cons.mp h)
  | case4 l n rest hlt hne ih =>
    obtain ⟨hfirst, hrest⟩ := List.pairwise_cons.mp h
    refine List.pairwise_cons.mpr ⟨fun e he => ?_, ih hrest⟩
    rcases mem_increment he with he | he
    · rw [he]
      exact Std.lt_of_le_of_ne (String.not_lt.mp hlt) (Ne.symm hne)
    · exact hfirst e he

theorem sum_increment (label : String) (counters : List (String × ℕ)) :
    ((increment label counters).map (·.2)).sum = (counters.map (·.2)).sum + 1 := by
  fun_induction increment label counters with
  | case1 => rfl
  | case2 l n rest _ => simp only [List.map_cons, List.sum_cons]; omega
  | case3 n rest _ => simp only [List.map_cons, List.sum_cons]; omega
  | case4 l n rest _ _ ih => simp only [List.map_cons, List.sum_cons, ih]; omega

theorem countIn_cons (l : String) (n : ℕ) (counters : List (String × ℕ)) (label : String) :
    countIn ((l, n) :: counters) label = if l = label then n else countIn counters label := by
  by_cases h : l = label <;> simp [countIn, h]

theorem countIn_eq_zero {counters : List (String × ℕ)} {label : String}
    (h : ∀ e ∈ counters, label < e.1) : countIn counters label = 0 := by
  induction counters with
  | nil => rfl
  | cons e counters ih =>
    obtain ⟨hfirst, hmore⟩ := List.forall_mem_cons.mp h
    rw [countIn_cons, if_neg (String.ne_of_lt hfirst).symm, ih hmore]

theorem countIn_of_mem {counters : List (String × ℕ)} (h : Sorted counters) {e : String × ℕ}
    (he : e ∈ counters) : countIn counters e.1 = e.2 := by
  induction counters with
  | nil => cases he
  | cons e' counters ih =>
    obtain ⟨hfirst, hmore⟩ := List.pairwise_cons.mp h
    rw [countIn_cons]
    rcases List.mem_cons.mp he with rfl | he
    · rw [if_pos rfl]
    · rw [if_neg (String.ne_of_lt (hfirst e he)), ih hmore he]

theorem mem_of_countIn {counters : List (String × ℕ)} {label : String}
    (h : countIn counters label ≠ 0) : (label, countIn counters label) ∈ counters := by
  induction counters with
  | nil => exact absurd rfl h
  | cons e counters ih =>
    rw [countIn_cons] at h ⊢
    split
    · rename_i hlabel
      rw [← hlabel]
      exact List.mem_cons_self
    · rename_i hlabel
      rw [if_neg hlabel] at h
      exact List.mem_cons_of_mem _ (ih h)

theorem increment_ne_zero {counters : List (String × ℕ)} (h : ∀ e ∈ counters, e.2 ≠ 0)
    (label : String) : ∀ e ∈ increment label counters, e.2 ≠ 0 := by
  fun_induction increment label counters with
  | case1 => simp
  | case2 => exact List.forall_mem_cons.mpr ⟨Nat.one_ne_zero, h⟩
  | case3 =>
    exact List.forall_mem_cons.mpr ⟨Nat.succ_ne_zero _, (List.forall_mem_cons.mp h).2⟩
  | case4 l n rest _ _ ih =>
    obtain ⟨hfirst, hmore⟩ := List.forall_mem_cons.mp h
    exact List.forall_mem_cons.mpr ⟨hfirst, ih hmore⟩

theorem countIn_increment {counters : List (String × ℕ)} (h : Sorted counters)
    (label other : String) : countIn (increment label counters) other =
      countIn counters other + if label = other then 1 else 0 := by
  fun_induction increment label counters with
  | case1 =>
    have hnone : countIn [] other = 0 := rfl
    rw [countIn_cons, hnone, zero_add]
  | case2 l n rest hlt =>
    rw [countIn_cons label]
    split
    · rename_i hother
      have hbehind : ∀ e ∈ (l, n) :: rest, other < e.1 := by
        rw [← hother, List.forall_mem_cons]
        exact ⟨hlt, fun e he => String.lt_trans hlt ((List.pairwise_cons.mp h).1 e he)⟩
      rw [countIn_eq_zero hbehind]
    · rfl
  | case3 n rest _ =>
    rw [countIn_cons, countIn_cons]
    split <;> rfl
  | case4 l n rest hlt hne ih =>
    rw [countIn_cons, countIn_cons, ih (List.pairwise_cons.mp h).2]
    split
    · rename_i hl
      rw [if_neg (hl ▸ hne), add_zero]
    · rfl

/-- The metrics of some questions, each with its label and the seconds that it took. -/
structure Counts (m : Metrics) (seen : List (String × Double)) : Prop where
  sorted : Sorted m.counters
  positive : ∀ e ∈ m.counters, e.2 ≠ 0
  each : ∀ label, m.count label = seen.countP fun e => e.1 = label
  total : (m.counters.map (·.2)).sum = seen.length
  durations : m.durations.Holds (seen.map (·.2))

theorem counts_empty : empty.Counts [] where
  sorted := List.Pairwise.nil
  positive _ := nofun
  each _ := rfl
  total := rfl
  durations := Histogram.holds_empty

theorem Counts.record {m : Metrics} {seen : List (String × Double)} (h : m.Counts seen)
    (label : String) (x : Double) : (m.record label x).Counts (seen ++ [(label, x)]) where
  sorted := h.sorted.increment label
  positive := increment_ne_zero h.positive label
  each other := by
    have hcount : countIn m.counters other = seen.countP fun e => e.1 = other := h.each other
    show countIn (increment label m.counters) other = _
    rw [countIn_increment h.sorted, hcount, List.countP_append, List.countP_singleton]
    simp
  total := by
    show ((increment label m.counters).map (·.2)).sum = _
    rw [sum_increment, h.total, List.length_append, List.length_singleton]
  durations := by
    rw [List.map_append]
    exact h.durations.observe x

theorem Counts.mem_counters {m : Metrics} {seen : List (String × Double)} (h : m.Counts seen)
    (e : String × ℕ) :
    e ∈ m.counters ↔ e.2 = (seen.countP fun s => s.1 = e.1) ∧ e.2 ≠ 0 := by
  have heach : countIn m.counters e.1 = seen.countP fun s => s.1 = e.1 := h.each e.1
  constructor
  · exact fun he => ⟨(countIn_of_mem h.sorted he).symm.trans heach, h.positive e he⟩
  · rintro ⟨hcount, hne⟩
    rw [hcount, ← heach] at hne
    have hmem := mem_of_countIn hne
    rwa [heach, ← hcount] at hmem

def bucketLine (seen : List Double) (bound : Double) : String :=
  sample (histogramName ++ "_bucket") "le" bound.text (seen.countP fun x => Histogram.atMost x bound)

theorem Counts.histogramLines_eq {m : Metrics} {seen : List (String × Double)} (h : m.Counts seen) :
    histogramLines m.durations =
      heading histogramName "End-to-end query latency in seconds" "histogram" ++
        Histogram.bounds.map (bucketLine (seen.map (·.2))) ++
        [sample (histogramName ++ "_bucket") "le" "+Inf" seen.length,
          histogramName ++ "_sum " ++ m.durations.sum.text,
          histogramName ++ "_count " ++ toString seen.length] := by
  rw [histogramLines, h.durations.cumulative_eq, h.durations.total, List.length_map, List.map_map]
  rfl

end Metrics

end Screener
