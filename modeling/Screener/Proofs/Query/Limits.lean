import Screener.Proofs.Number.Exact
import Screener.Proofs.Query.Readers
import Screener.Proofs.Sql.Pieces

namespace Screener

def Json.number? : Json → Option ℚ
  | int n => some n
  | float x => some x.rational
  | _ => none

namespace Query

/-- A document asks for `n` records if its limit is the number `n`; nothing asks for none. -/
def AsksFor (v : Json) (n : ℕ) : Prop :=
  1 ≤ n ∧ (v.get? "limit").bind Json.number? = some (n : ℚ)

theorem limitOfJson?_eq_some_iff {v : Json} {k : ℕ} : limitOfJson? v = some k ↔
    ∃ n : ℕ, 1 ≤ n ∧ v.number? = some (n : ℚ) ∧ min n maxLimit = k := by
  have hwhole : ∀ m : ℤ, (if 1 ≤ m then some (min m.toNat maxLimit) else none) = some k ↔
      ∃ n : ℕ, 1 ≤ n ∧ m = n ∧ min n maxLimit = k := by
    intro m
    rw [Option.ite_none_right_eq_some, Option.some.injEq]
    constructor
    · rintro ⟨hm, hk⟩
      exact ⟨m.toNat, by omega, by omega, hk⟩
    · rintro ⟨n, hn, rfl, hk⟩
      exact ⟨by omega, by rwa [Int.toNat_natCast]⟩
  cases v with
  | int m =>
    have hm := hwhole m
    simp only [Json.number?, Option.some.injEq]
    exact_mod_cast hm
  | float x =>
    simp only [limitOfJson?, Option.bind_eq_bind, Option.bind_eq_some_iff, hwhole, Json.number?,
      Binary.toInt?_eq_some_iff, Option.some.injEq]
    constructor
    · rintro ⟨m, hx, n, hn, rfl, hk⟩
      exact ⟨n, hn, by exact_mod_cast hx, hk⟩
    · rintro ⟨n, hn, hx, hk⟩
      exact ⟨n, by exact_mod_cast hx, n, hn, rfl, hk⟩
  | null | bool | string | array | object => simp [limitOfJson?, Json.number?]

theorem bind_limitOfJson? {v : Json} {k : ℕ} : (v.get? "limit").bind limitOfJson? = some k ↔
    ∃ n, AsksFor v n ∧ min n maxLimit = k := by
  simp only [AsksFor, Option.bind_eq_some_iff, limitOfJson?_eq_some_iff]
  constructor
  · rintro ⟨w, hw, n, hn, hv, hk⟩
    exact ⟨n, ⟨hn, w, hw, hv⟩, hk⟩
  · rintro ⟨n, ⟨hn, w, hw, hv⟩, hk⟩
    exact ⟨w, hw, n, hn, hv, hk⟩

theorem toNat_ofNat_of_le {n : ℕ} (h : n ≤ maxLimit) : (UInt32.ofNat n).toNat = n :=
  UInt32.toNat_ofNat_of_lt' (h.trans_lt (by decide))

theorem limit_of_asksFor {v : Json} {n : ℕ} (h : AsksFor v n) :
    (ofJson v).limit.toNat = min n maxLimit := by
  rw [ofJson, bind_limitOfJson?.mpr ⟨n, h, rfl⟩]
  exact toNat_ofNat_of_le (min_le_right n maxLimit)

theorem limit_of_not_asksFor {v : Json} (h : ∀ n, ¬AsksFor v n) :
    (ofJson v).limit.toNat = defaultLimit := by
  have hnone : (v.get? "limit").bind limitOfJson? = none := by
    rw [Option.eq_none_iff_forall_not_mem]
    intro k hk
    obtain ⟨n, hn, -⟩ := bind_limitOfJson?.mp hk
    exact h n hn
  rw [ofJson, hnone]
  exact toNat_ofNat_of_le (by decide)

theorem limit_ofJson_le (v : Json) :
    1 ≤ (ofJson v).limit.toNat ∧ (ofJson v).limit.toNat ≤ maxLimit := by
  obtain ⟨n, hn, hmax, hlimit⟩ := limit_ofJson_bounds v
  rw [hlimit, toNat_ofNat_of_le hmax]
  exact ⟨Nat.one_le_iff_ne_zero.mpr hn, hmax⟩

/-- The limit comes last, and nothing before it depends on it. -/
theorem exists_planText (columns : String) (spell : Literal → String) (p : Plan) :
    ∃ text : String, ∀ limit : ℕ,
      Sql.planText columns spell { p with limit := limit } =
        text ++ " LIMIT " ++ toString limit := by
  obtain ⟨conditions, order, _⟩ := p
  cases order with
  | none =>
    refine ⟨"SELECT " ++ columns ++ " FROM " ++ Sql.stocksTable ++
      Sql.whereText (conditions.map (Sql.conditionText spell)), ?_⟩
    intro limit
    simp only [Sql.planText, Sql.endText, String.append_assoc, String.empty_append]
  | some key =>
    refine ⟨"SELECT " ++ columns ++ " FROM " ++ Sql.stocksTable ++
      Sql.whereText (conditions.map (Sql.conditionText spell)) ++ " ORDER BY " ++ key.1.column ++
        " " ++ key.2.sql, ?_⟩
    intro limit
    simp only [Sql.planText, Sql.endText, String.append_assoc]

/-- The limit of a query that was read from a document is the number that the document gives for it,
up to the largest allowed, and the standard one if it gives none that is whole and not below one; it
is in bounds and is the limit that is applied. Both texts of a query end in its limit, brought
within the bounds, and are otherwise the same for every limit. -/
theorem limit_exact :
    (∀ v n, AsksFor v n → (ofJson v).limit.toNat = min n 1000) ∧
    (∀ v, (∀ n, ¬AsksFor v n) → (ofJson v).limit.toNat = 100) ∧
    (∀ v, 1 ≤ (ofJson v).limit.toNat ∧ (ofJson v).limit.toNat ≤ 1000 ∧
      (ofJson v).effectiveLimit = (ofJson v).limit.toNat) ∧
    ∀ q : Query, ∃ shown run : String, ∀ limit : UInt32,
      (q.withLimit limit).sql = shown ++ " LIMIT " ++ toString (max 1 (min limit.toNat 1000)) ∧
      (Sql.native (.ofQuery (q.withLimit limit))).sql =
        run ++ " LIMIT " ++ toString (max 1 (min limit.toNat 1000)) := by
  refine ⟨fun v n h => limit_of_asksFor h, fun v h => limit_of_not_asksFor h, ?_, ?_⟩
  · intro v
    obtain ⟨hone, hmax⟩ := limit_ofJson_le v
    refine ⟨hone, hmax, ?_⟩
    rw [effectiveLimit, min_eq_left hmax, max_eq_right hone]
  · intro q
    obtain ⟨shown, hshown⟩ := exists_planText "*" Sql.literal (.ofQuery q)
    obtain ⟨run, hrun⟩ := exists_planText (", ".intercalate Record.columns) (fun _ => "?")
      (.ofQuery q)
    refine ⟨shown, run, ?_⟩
    intro limit
    constructor
    · rw [Query.sql, Sql.audit_eq]
      exact hshown _
    · rw [Sql.native_sql_eq (Sql.limit_lt_size _)]
      exact hrun _

def tenToThe19 : Double := ⟨false, 4882812500000000, 11, by decide⟩

def half : Double := ⟨false, 4503599627370496, -53, by decide⟩

theorem limit_exact_tenToThe19 :
    (AsksFor (.object [("limit", .float tenToThe19)]) (10 ^ 19) ∧
      ∀ n, ¬AsksFor (.object [("limit", .float half)]) n) ∧
    (ofJson (.object [("limit", .float tenToThe19)])).limit.toNat = min (10 ^ 19) 1000 ∧
    (ofJson (.object [("limit", .float half)])).limit.toNat = 100 := by
  have hlarge : AsksFor (.object [("limit", .float tenToThe19)]) (10 ^ 19) := by
    refine ⟨by norm_num, ?_⟩
    show some tenToThe19.rational = _
    norm_num [Binary.rational, Binary.value, tenToThe19]
  have hhalf : ∀ n, ¬AsksFor (.object [("limit", .float half)]) n := by
    rintro n ⟨-, hn⟩
    have hvalue : half.rational = n := Option.some.inj hn
    have htwice : (1 : ℚ) = (2 * n : ℕ) := by
      push_cast
      rw [← hvalue]
      norm_num [Binary.rational, Binary.value, half]
    have hodd : 1 = 2 * n := by exact_mod_cast htwice
    omega
  exact ⟨⟨hlarge, hhalf⟩, limit_exact.1 _ _ hlarge, limit_exact.2.1 _ hhalf⟩

end Query

end Screener
