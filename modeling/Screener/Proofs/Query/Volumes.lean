import Screener.Proofs.Number.Exact
import Screener.Proofs.Operators

namespace Screener

def Comparison.Relates (c : Comparison) (m n : ℤ) : Prop :=
  match c with
  | eq => m = n
  | gt => n < m
  | gte => n ≤ m
  | lt => m < n
  | lte => m ≤ n

instance (c : Comparison) (m n : ℤ) : Decidable (c.Relates m n) := by
  unfold Comparison.Relates
  cases c <;> infer_instance

theorem Comparison.admits_compare_iff (c : Comparison) (m n : ℤ) :
    c.admits (compare m n) = true ↔ c.Relates m n := by
  cases c with
  | eq => exact Ordering.isEq_iff_eq_eq.trans compare_eq_iff_eq
  | gt => exact Ordering.isGT_iff_eq_gt.trans compare_gt_iff_gt
  | gte => exact Std.isGE_compare
  | lt => exact Ordering.isLT_iff_eq_lt.trans compare_lt_iff_lt
  | lte => exact Std.isLE_compare

theorem Comparison.admits_eq_iff (c : Comparison) (m : ℤ) :
    c.admits .eq = true ↔ c.Relates m m := by
  rw [← admits_compare_iff, compare_eq_iff_eq.mpr rfl]

namespace Literal

theorem ofJson?_toInt (n : Int64) : ofJson? (.int n.toInt) = some (.int n) := by
  have hfits : -Json.int64Bound ≤ n.toInt ∧ n.toInt < Json.int64Bound := ⟨n.le_toInt, n.toInt_lt⟩
  rw [ofJson?, ofInt?, if_pos hfits, Int64.ofInt_toInt]

/-- Beside the nearest double of a whole number, what is merged with it is level with it. -/
theorem satisfies_rounded {m : Int64} {n : ℤ} {x : Double} (hx : Binary.ofInt? n = some x)
    (c : Comparison) : (Literal.int m).satisfies c (.float x) =
      c.admits (if Binary.Merges m.toInt n then .eq else compare m.toInt n) := by
  obtain ⟨y, hy⟩ := Binary.ofInt?_isSome m
  rw [satisfies, order?, hy, Option.map_some, Option.any_some, Binary.compareValue_ofInt? hy hx]

end Literal

/-- The volume and an operand that does not fit into 64 bits with a sign have one nearest double,
which is two to the power of 63. -/
def Blurred (v : Int64) (n : ℤ) : Prop :=
  2 ^ 63 - 512 ≤ v.toInt ∧ 2 ^ 63 ≤ n ∧ n ≤ 2 ^ 63 + 1024

instance (v : Int64) (n : ℤ) : Decidable (Blurred v n) := by
  unfold Blurred
  infer_instance

section

variable {f : Field} {r : Record}

theorem selects_between {a b : Json} (ha : a.Scalar) (hb : b.Scalar) :
    Selects [.on f .between (.array [a, b])] r ↔
      Selects [.on f (.compare .gte) a] r ∧ Selects [.on f (.compare .lte) b] r := by
  obtain ⟨low, hlow⟩ := ha.exists_literal
  obtain ⟨high, hhigh⟩ := hb.exists_literal
  simp only [selects_iff, List.forall_mem_singleton, admits_between hlow hhigh, Bool.and_eq_true]

theorem selects_member {vs : List Json} (hvs : ∀ v ∈ vs, v.Scalar) :
    Selects [.on f .member (.array vs)] r ↔ ∃ v ∈ vs, Selects [.on f (.compare .eq) v] r := by
  simp only [selects_iff, List.forall_mem_singleton, admits_member hvs, List.any_eq_true]

end

section

variable {r : Record} {v : Int64} (hv : r.volume = some v)
include hv

theorem value_volume : r.value .volume = .int v := by
  rw [Record.value, hv]
  rfl

theorem selects_volume {n : ℤ} (hn : Json.IsWhole n) (c : Comparison) :
    Selects [.on .volume (.compare c) (.int n)] r ↔
      c.admits (if Blurred v n then .eq else compare v.toInt n) = true := by
  obtain ⟨hlow, hhigh⟩ := hn
  have hv1 := v.le_toInt
  have hv2 := v.toInt_lt
  simp only [Json.int64Bound, Json.uint64Bound] at hlow hhigh
  rcases lt_or_ge n (2 ^ 63) with hfits | hwide
  · obtain ⟨k, rfl⟩ : ∃ k : Int64, k.toInt = n := ⟨.ofInt n, Int64.toInt_ofInt_of_le hlow hfits⟩
    have hclear : ¬Blurred v k.toInt := fun h => absurd h.2.1 (not_le.mpr hfits)
    rw [selects_compare (Literal.ofJson?_toInt k), value_volume hv, if_neg hclear]
    rfl
  · have hwhole : ¬(-Json.int64Bound ≤ n ∧ n < Json.int64Bound) := by
      simp only [Json.int64Bound]
      omega
    obtain ⟨x, hx⟩ := Binary.ofInt?_isSome_of_natAbs_le (n := n) (by omega)
    have hl : Literal.ofJson? (.int n) = some (.float x) := by
      rw [Literal.ofJson?, Literal.ofInt?, if_neg hwhole, hx, Option.map_some]
    have hmerges : Binary.Merges v.toInt n ↔ Blurred v n := by
      rw [Binary.Merges.top_iff hv1 hv2 hwide (by omega), Blurred]
      tauto
    have hsatisfies := Literal.satisfies_rounded (m := v) hx c
    rw [selects_compare hl, value_volume hv]
    show (Literal.int v).satisfies c (.float x) = true ↔ _
    rw [hsatisfies]
    simp only [hmerges]

theorem selects_volume_of_clear {n : ℤ} (hn : Json.IsWhole n) (h : ¬Blurred v n)
    (c : Comparison) : Selects [.on .volume (.compare c) (.int n)] r ↔ c.Relates v.toInt n := by
  rw [selects_volume hv hn, if_neg h, Comparison.admits_compare_iff]

theorem selects_volume_of_blurred {n : ℤ} (hn : Json.IsWhole n) (h : Blurred v n)
    (c : Comparison) :
    Selects [.on .volume (.compare c) (.int n)] r ↔ c.Relates v.toInt v.toInt := by
  rw [selects_volume hv hn, if_pos h, Comparison.admits_eq_iff]

/-- An upper bound is exact even where it is blurred, for it lies above every volume. -/
theorem selects_volume_lte {n : ℤ} (hn : Json.IsWhole n) :
    Selects [.on .volume (.compare .lte) (.int n)] r ↔ v.toInt ≤ n := by
  by_cases h : Blurred v n
  · have hle : v.toInt ≤ n := v.toInt_lt.le.trans h.2.1
    exact iff_of_true ((selects_volume_of_blurred hv hn h .lte).mpr le_rfl) hle
  · exact selects_volume_of_clear hv hn h .lte

/-- Clauses on the volume are exact. A comparison with a whole number selects just the volumes that
relate to the number, two bounds just those between them, and a list just those that it holds; all
this unless the number that is compared with is blurred, which selects as if it were the volume. -/
theorem volume_exact :
    (∀ n, Json.IsWhole n → ¬Blurred v n → ∀ c : Comparison,
      (Selects [.on .volume (.compare c) (.int n)] r ↔ c.Relates v.toInt n)) ∧
    (∀ low high, Json.IsWhole low → Json.IsWhole high → ¬Blurred v low →
      (Selects [.on .volume .between (.array [.int low, .int high])] r ↔
        low ≤ v.toInt ∧ v.toInt ≤ high)) ∧
    (∀ ns : List ℤ, (∀ n ∈ ns, Json.IsWhole n ∧ ¬Blurred v n) →
      (Selects [.on .volume .member (.array (ns.map .int))] r ↔ v.toInt ∈ ns)) ∧
    ∀ n, Json.IsWhole n → Blurred v n → ∀ c : Comparison,
      (Selects [.on .volume (.compare c) (.int n)] r ↔ c.Relates v.toInt v.toInt) := by
  refine ⟨fun n => selects_volume_of_clear hv, ?_, ?_, fun n => selects_volume_of_blurred hv⟩
  · intro low high hlow hhigh hclear
    have hbounds := selects_between (f := .volume) (r := r) (.int hlow) (.int hhigh)
    rw [hbounds, selects_volume_of_clear hv hlow hclear, selects_volume_lte hv hhigh]
    rfl
  · intro ns hns
    have hscalar : ∀ w ∈ ns.map Json.int, w.Scalar := by
      intro w hw
      obtain ⟨n, hn, rfl⟩ := List.mem_map.mp hw
      exact .int (hns n hn).1
    simp only [selects_member hscalar, List.mem_map, exists_exists_and_eq_and]
    constructor
    · rintro ⟨n, hn, hsel⟩
      have heq : v.toInt = n :=
        (selects_volume_of_clear hv (hns n hn).1 (hns n hn).2 .eq).mp hsel
      exact heq ▸ hn
    · intro hmem
      obtain ⟨hwhole, hclear⟩ := hns _ hmem
      exact ⟨_, hmem, (selects_volume_of_clear hv hwhole hclear .eq).mpr rfl⟩

end

def fullRecord : Record := (Record.new "A" "A" Double.zero).withVolume 9223372036854775807

theorem volume_exact_fullRecord :
    (fullRecord.volume = some 9223372036854775807 ∧
      (Json.IsWhole 9223372036854776833 ∧ ¬Blurred 9223372036854775807 9223372036854776833) ∧
      (Json.IsWhole 9223372036854775806 ∧ ¬Blurred 9223372036854775807 9223372036854775806) ∧
      Json.IsWhole 9223372036854775808 ∧ Blurred 9223372036854775807 9223372036854775808) ∧
    Selects [.on .volume (.compare .lt) (.int 9223372036854776833)] fullRecord ∧
    Selects [.on .volume .between (.array [.int 9223372036854775806, .int 9223372036854775808])]
      fullRecord ∧
    ¬Selects [.on .volume .member (.array [.int 9223372036854775806, .int 9223372036854776833])]
      fullRecord ∧
    Selects [.on .volume (.compare .gte) (.int 9223372036854775808)] fullRecord := by
  have hv : fullRecord.volume = some 9223372036854775807 := rfl
  have hlarge : Json.IsWhole 9223372036854776833 ∧
      ¬Blurred 9223372036854775807 9223372036854776833 := by decide
  have hsmall : Json.IsWhole 9223372036854775806 ∧
      ¬Blurred 9223372036854775807 9223372036854775806 := by decide
  have hnext : Json.IsWhole 9223372036854775808 := by decide
  have hblurred : Blurred 9223372036854775807 9223372036854775808 := by decide
  have hmembers : ∀ n ∈ [9223372036854775806, 9223372036854776833],
      Json.IsWhole n ∧ ¬Blurred 9223372036854775807 n := by
    simpa using ⟨hsmall, hlarge⟩
  obtain ⟨hclear, hbetween, hmember, hlevel⟩ := volume_exact hv
  refine ⟨⟨hv, hlarge, hsmall, hnext, hblurred⟩, ?_, ?_, ?_, ?_⟩
  · exact (hclear _ hlarge.1 hlarge.2 .lt).mpr (by decide)
  · exact (hbetween _ _ hsmall.1 hnext hsmall.2).mpr (by decide)
  · exact fun h => absurd ((hmember _ hmembers).mp h) (by decide)
  · exact (hlevel _ hnext hblurred .gte).mpr le_rfl

theorem fullRecord_selected :
    fullRecord.volume = some 9223372036854775807 ∧ Json.IsWhole 9223372036854775808 ∧
      Selects [.on .volume (.compare .eq) (.int 9223372036854775808)] fullRecord ∧
      ¬Comparison.eq.Relates 9223372036854775807 9223372036854775808 := by
  have hv : fullRecord.volume = some 9223372036854775807 := rfl
  have hwhole : Json.IsWhole 9223372036854775808 := by decide
  have hselected := (selects_volume_of_blurred hv hwhole (by decide) .eq).mpr rfl
  exact ⟨hv, hwhole, hselected, by decide⟩

end Screener
