import Screener.Proofs.Json.Lookup
import Screener.Query

namespace Screener

open Json.Codec

section

variable {entries : List (String × Json)}

theorem Clause.codec_object (h : (entries.map Prod.fst).Nodup) (c : Clause) :
    codec.ofJson (.object entries) = .ok c ↔
      (Json.object entries).get? "field" = some (.string c.field) ∧
      (Json.object entries).get? "operator" = some (.string c.operator) ∧
      ((Json.object entries).get? "value").getD .null = c.value := by
  rw [codec, ofJson_via _ (fun _ => rfl) (fun _ => rfl), ofJson_record, accepts_cons _ _ h,
    accepts_cons _ _ (Json.nodup_without h _),
    accepts_cons _ _ (Json.nodup_without (Json.nodup_without h _) _)]
  simp [gives_text, gives_any, accepts_none, Json.get?_without]

theorem SortKey.codec_object (h : (entries.map Prod.fst).Nodup) (k : SortKey) :
    codec.ofJson (.object entries) = .ok k ↔
      (Json.object entries).get? "field" = some (.string k.field) ∧
      (((Json.object entries).get? "direction" = none ∧ k.direction = .ascending) ∨
        ∃ v, (Json.object entries).get? "direction" = some v ∧
          Direction.codec.ofJson v = .ok k.direction) := by
  rw [codec, ofJson_via _ (fun _ => rfl) (fun _ => rfl), ofJson_record, accepts_cons _ _ h,
    accepts_cons _ _ (Json.nodup_without h _)]
  simp [gives_text, gives_defaulted, accepts_none, Json.get?_without]

theorem Query.codec_object (h : (entries.map Prod.fst).Nodup) (q : Query) :
    codec.ofJson (.object entries) = .ok q ↔
      (((Json.object entries).get? "filters" = none ∧ q.clauses = []) ∨
        ∃ v, (Json.object entries).get? "filters" = some v ∧
          Clause.codec.list.ofJson v = .ok q.clauses) ∧
      (((Json.object entries).get? "order_by" = none ∧ q.order = none) ∨
        ∃ v, (Json.object entries).get? "order_by" = some v ∧
          SortKey.codec.optional.ofJson v = .ok q.order) ∧
      (((Json.object entries).get? "limit" = none ∧ q.limit = UInt32.ofNat defaultLimit) ∨
        ∃ v, (Json.object entries).get? "limit" = some v ∧ nat32.ofJson v = .ok q.limit) := by
  rw [codec, ofJson_via _ (fun _ => rfl) (fun _ => rfl), ofJson_record, accepts_cons _ _ h,
    accepts_cons _ _ (Json.nodup_without h _),
    accepts_cons _ _ (Json.nodup_without (Json.nodup_without h _) _)]
  simp [gives_defaulted, accepts_none, Json.get?_without]

end

theorem Clause.ofJson?_of_codec {v : Json} (hv : v.WellFormed) (hobject : v.isObject = true)
    {c : Clause} (h : codec.ofJson v = .ok c) : ofJson? v = some c := by
  cases v with
  | object entries =>
    obtain ⟨hfield, hoperator, hvalue⟩ := (codec_object hv.nodup c).mp h
    simp only [ofJson?, hfield, hoperator, hvalue, Option.bind_some, Json.string?]
    rfl
  | _ => cases hobject

theorem Direction.ofText_name (d : Direction) : ofText d.name = d := by
  cases d <;> rfl

theorem Direction.ofText_of_codec {s : String} {d : Direction}
    (h : codec.ofJson (.string s) = .ok d) : ofText s = d := by
  have hfind := (ofJson_choice _ _ _ _).mp h
  have hname : name d = s := by simpa using List.find?_some hfind
  rw [← hname, ofText_name]

theorem SortKey.ofJson?_of_codec {v : Json} (hv : v.WellFormed) (hobject : v.isObject = true)
    (hdirection : ∀ w, v.get? "direction" = some w → ∃ s, w = .string s) {k : SortKey}
    (h : codec.ofJson v = .ok k) : ofJson? v = some k := by
  cases v with
  | object entries =>
    obtain ⟨hfield, hnone | ⟨w, hw, hd⟩⟩ := (codec_object hv.nodup k).mp h
    · simp only [ofJson?, hfield, hnone, Option.bind_some, Json.string?]
      rw [Option.bind_none, Option.map_none, Option.getD_none, ← hnone.2]
      rfl
    · obtain ⟨s, rfl⟩ := hdirection w hw
      simp only [ofJson?, hfield, hw, Option.bind_some, Json.string?, Option.map_some,
        Option.getD_some, Direction.ofText_of_codec hd]
      rfl
  | _ => cases hobject

theorem Clause.filterMap_ofJson? {items : List Json} {clauses : List Clause}
    (h : List.Forall₂ (fun v c => codec.ofJson v = .ok c) items clauses)
    (hitems : ∀ v ∈ items, v.WellFormed ∧ v.isObject = true) : items.filterMap ofJson? = clauses := by
  induction h with
  | nil => rfl
  | cons hc _ ih =>
    rw [List.forall_mem_cons] at hitems
    rw [List.filterMap_cons_some (ofJson?_of_codec hitems.1.1 hitems.1.2 hc), ih hitems.2]

namespace Query

/-- A clause is given as an object, a sort as an object or null, its direction as text. -/
structure ObjectForm (v : Json) : Prop where
  clauses : ∀ items, v.get? "filters" = some (.array items) → ∀ c ∈ items, c.isObject = true
  order : ∀ w, v.get? "order_by" = some w → w = .null ∨ w.isObject = true
  direction : ∀ w d, v.get? "order_by" = some w → w.get? "direction" = some d → ∃ s, d = .string s

/-- A limit of zero is the default one, and one beyond the largest is the largest. -/
def normalized (q : Query) : Query :=
  q.withLimit <| UInt32.ofNat <|
    if q.limit.toNat = 0 then defaultLimit else min q.limit.toNat maxLimit

theorem eq_of_parts {q q' : Query} (hc : q.clauses = q'.clauses) (ho : q.order = q'.order)
    (hl : q.limit = q'.limit) : q = q' := by
  cases q
  cases q'
  cases hc
  cases ho
  cases hl
  rfl

theorem limitOfJson?_int (n : ℕ) :
    (limitOfJson? (.int n)).getD defaultLimit = if n = 0 then defaultLimit else min n maxLimit := by
  by_cases hn : n = 0
  · rw [if_pos hn, hn]
    rfl
  · have hone : (1 : ℤ) ≤ n := by omega
    have hlimit : limitOfJson? (.int n) = some (min (n : ℤ).toNat maxLimit) := if_pos hone
    rw [if_neg hn, hlimit, Int.toNat_natCast, Option.getD_some]

theorem limitOfJson?_bounds {v : Json} {n : ℕ} (h : limitOfJson? v = some n) :
    n ≠ 0 ∧ n ≤ maxLimit := by
  have hwhole : ∀ m : ℤ, (if 1 ≤ m then some (min m.toNat maxLimit) else none) = some n →
      n ≠ 0 ∧ n ≤ maxLimit := by
    intro m hm
    have hmax : 0 < maxLimit := by decide
    split at hm
    · cases hm
      omega
    · cases hm
  cases v with
  | int m => exact hwhole m h
  | float x =>
    obtain ⟨m, -, hm⟩ := Option.bind_eq_some_iff.mp h
    exact hwhole m hm
  | _ => cases h

theorem clauses_ofJson {v : Json} (hv : v.WellFormed) (hform : ObjectForm v) {q : Query}
    (h : (v.get? "filters" = none ∧ q.clauses = []) ∨
      ∃ w, v.get? "filters" = some w ∧ Clause.codec.list.ofJson w = .ok q.clauses) :
    (ofJson v).clauses = q.clauses := by
  obtain ⟨hnone, hq⟩ | ⟨w, hw, hlist⟩ := h
  · rw [ofJson, hnone, hq]
    rfl
  · obtain ⟨items, rfl, hitems⟩ := (ofJson_list _ _ _).mp hlist
    have hobjects := hform.clauses items hw
    rw [ofJson, hw]
    exact Clause.filterMap_ofJson? hitems fun c hc => ⟨(hv.get hw).mem hc, hobjects c hc⟩

theorem order_ofJson {v : Json} (hv : v.WellFormed) (hform : ObjectForm v) {q : Query}
    (h : (v.get? "order_by" = none ∧ q.order = none) ∨
      ∃ w, v.get? "order_by" = some w ∧ SortKey.codec.optional.ofJson w = .ok q.order) :
    (ofJson v).order = q.order := by
  obtain ⟨hnone, hq⟩ | ⟨w, hw, hread⟩ := h
  · rw [ofJson, hnone, hq]
    rfl
  · obtain ⟨rfl, hq⟩ | ⟨k, hnull, hk, hq⟩ := (ofJson_optional _ _ _).mp hread
    · rw [ofJson, hw, hq]
      rfl
    · have hobject := (hform.order w hw).resolve_left hnull
      rw [ofJson, hw, hq]
      exact SortKey.ofJson?_of_codec (hv.get hw) hobject (fun d => hform.direction w d hw) hk

theorem limit_ofJson {v : Json} {q : Query}
    (h : (v.get? "limit" = none ∧ q.limit = UInt32.ofNat defaultLimit) ∨
      ∃ w, v.get? "limit" = some w ∧ nat32.ofJson w = .ok q.limit) :
    (ofJson v).limit = q.normalized.limit := by
  obtain ⟨hnone, hq⟩ | ⟨w, hw, hread⟩ := h
  · rw [ofJson, hnone, normalized, hq]
    rfl
  · rw [ofJson_nat32] at hread
    subst hread
    have hlimit := limitOfJson?_int q.limit.toNat
    rw [ofJson, hw, normalized]
    exact congrArg UInt32.ofNat hlimit

theorem ofJson_of_codec {v : Json} (hobject : v.isObject = true) (hv : v.WellFormed)
    (hform : ObjectForm v) {q : Query} (h : codec.ofJson v = .ok q) : ofJson v = q.normalized := by
  cases v with
  | object entries =>
    obtain ⟨hclauses, horder, hlimit⟩ := (codec_object hv.nodup q).mp h
    exact eq_of_parts (clauses_ofJson hv hform hclauses) (order_ofJson hv hform horder)
      (limit_ofJson hlimit)
  | _ => cases hobject

end Query

/-! Queries as documents. -/

namespace Clause

def toJson (c : Clause) : Json :=
  .object [("field", .string c.field), ("operator", .string c.operator), ("value", c.value)]

theorem ofJson?_toJson (c : Clause) : ofJson? c.toJson = some c := rfl

theorem codec_toJson (c : Clause) : codec.ofJson c.toJson = .ok c :=
  (codec_object (by simp) c).mpr ⟨rfl, rfl, rfl⟩

end Clause

namespace SortKey

def toJson (k : SortKey) : Json :=
  .object [("direction", .string k.direction.name), ("field", .string k.field)]

theorem ofJson?_toJson (k : SortKey) : ofJson? k.toJson = some k := by
  show some (⟨k.field, Direction.ofText k.direction.name⟩ : SortKey) = some k
  rw [Direction.ofText_name]

theorem codec_toJson (k : SortKey) : codec.ofJson k.toJson = .ok k := by
  refine (codec_object (by simp) k).mpr ⟨rfl, .inr ⟨_, rfl, ?_⟩⟩
  cases k.direction <;> rfl

end SortKey

namespace Query

def toJson (q : Query) : Json := .object [
  ("filters", .array (q.clauses.map Clause.toJson)),
  ("limit", .int q.limit.toNat),
  ("order_by", (q.order.map SortKey.toJson).getD .null)]

theorem codec_toJson (q : Query) : codec.ofJson q.toJson = .ok q := by
  refine (codec_object (by simp) q).mpr
    ⟨.inr ⟨_, rfl, ?_⟩, .inr ⟨_, rfl, ?_⟩, .inr ⟨_, rfl, ?_⟩⟩
  · rw [ofJson_list]
    refine ⟨_, rfl, ?_⟩
    rw [List.forall₂_map_left_iff, List.forall₂_same]
    exact fun c _ => Clause.codec_toJson c
  · rw [ofJson_optional]
    cases q.order with
    | none => exact .inl ⟨rfl, rfl⟩
    | some k => exact .inr ⟨k, nofun, SortKey.codec_toJson k, rfl⟩
  · rw [ofJson_nat32]

theorem ofJson_toJson (q : Query) : ofJson q.toJson = q.normalized := by
  refine eq_of_parts ?_ ?_ (congrArg UInt32.ofNat (limitOfJson?_int q.limit.toNat))
  · show (q.clauses.map Clause.toJson).filterMap Clause.ofJson? = q.clauses
    rw [List.filterMap_map]
    exact List.filterMap_some
  · show (some ((q.order.map SortKey.toJson).getD .null)).bind SortKey.ofJson? = q.order
    cases q.order with
    | none => rfl
    | some k => exact SortKey.ofJson?_toJson k

theorem limit_ofJson_bounds (v : Json) : ∃ n : ℕ, n ≠ 0 ∧ n ≤ maxLimit ∧
    (ofJson v).limit = UInt32.ofNat n := by
  refine ⟨_, ?_, ?_, rfl⟩
  all_goals
    cases h : (v.get? "limit").bind limitOfJson? with
    | none => decide
    | some n =>
      obtain ⟨w, -, hw⟩ := Option.bind_eq_some_iff.mp h
      have hbounds := limitOfJson?_bounds hw
      simp [hbounds]

theorem normalized_ofJson (v : Json) : (ofJson v).normalized = ofJson v := by
  obtain ⟨n, hn, hmax, hlimit⟩ := limit_ofJson_bounds v
  have hsize : n < 2 ^ 32 := hmax.trans_lt (by decide)
  have hback : (UInt32.ofNat n).toNat = n := UInt32.toNat_ofNat_of_lt' hsize
  have hsame : UInt32.ofNat (if (ofJson v).limit.toNat = 0 then defaultLimit else
      min (ofJson v).limit.toNat maxLimit) = (ofJson v).limit := by
    rw [hlimit, hback, if_neg hn, min_eq_left hmax]
  exact eq_of_parts rfl rfl hsame

/-- What the strict reader takes in the form of objects, the lenient one reads as the same query but
for the limit, which is brought within its bounds. So a query comes back from its own document with
that limit only, and what the lenient reader has read comes back as it is. -/
theorem readers_agree :
    (∀ v q, v.isObject = true → v.WellFormed → ObjectForm v → codec.ofJson v = .ok q →
      ofJson v = q.normalized) ∧
    (∀ q : Query, codec.ofJson q.toJson = .ok q ∧ ofJson q.toJson = q.normalized) ∧
    ∀ v, ofJson (ofJson v).toJson = ofJson v := by
  refine ⟨fun v q hobject hv hform h => ofJson_of_codec hobject hv hform h,
    fun q => ⟨codec_toJson q, ofJson_toJson q⟩, fun v => ?_⟩
  rw [ofJson_toJson, normalized_ofJson]

def looseDocument : Json := .object [
  ("comment", .string "?"),
  ("filters", .array [
    .object [("field", .string "ebitda"), ("operator", .string "gt"), ("value", .array [.int 1])],
    .object [("field", .string "sector"), ("note", .null), ("operator", .string "eq")]]),
  ("limit", .int 5000),
  ("order_by", .object [("direction", .string "desc"), ("field", .string "price")])]

def looseQuery : Query where
  clauses := [⟨"ebitda", "gt", .array [.int 1]⟩, ⟨"sector", "eq", .null⟩]
  order := some ⟨"price", .descending⟩
  limit := 5000

theorem wellFormed_looseDocument : looseDocument.WellFormed := by
  have hlist : (Json.array [.int 1]).WellFormed := .array (by simpa using .int (by decide))
  have hgrown : (Json.object [("field", .string "ebitda"), ("operator", .string "gt"),
      ("value", .array [.int 1])]).WellFormed :=
    .object (by decide) (by simpa using ⟨.string _, .string _, hlist⟩)
  have hbare : (Json.object [("field", .string "sector"), ("note", .null),
      ("operator", .string "eq")]).WellFormed :=
    .object (by decide) (by simpa using ⟨.string _, .null, .string _⟩)
  have hsort : (Json.object [("direction", .string "desc"), ("field", .string "price")]).WellFormed :=
    .object (by decide) (by simpa using ⟨.string _, .string _⟩)
  have hclauses := Json.WellFormed.array
    (List.forall_mem_cons.mpr ⟨hgrown, List.forall_mem_singleton.mpr hbare⟩)
  exact .object (by decide)
    (by simpa using ⟨.string _, hclauses, .int (by decide), hsort⟩)

theorem objectForm_looseDocument : ObjectForm looseDocument where
  clauses := by
    intro items h
    cases h
    decide
  order := by
    intro w h
    cases h
    exact .inr rfl
  direction := by
    intro w d h hd
    cases h
    cases hd
    exact ⟨_, rfl⟩

theorem readers_agree_looseDocument :
    (looseDocument.isObject = true ∧ looseDocument.WellFormed ∧ ObjectForm looseDocument ∧
      codec.ofJson looseDocument = .ok looseQuery) ∧
    ofJson looseDocument = looseQuery.withLimit 1000 := by
  have hread : codec.ofJson looseDocument = .ok looseQuery := by rfl
  exact ⟨⟨rfl, wellFormed_looseDocument, objectForm_looseDocument, hread⟩,
    readers_agree.1 looseDocument looseQuery rfl wellFormed_looseDocument objectForm_looseDocument
      hread⟩

end Query

end Screener
