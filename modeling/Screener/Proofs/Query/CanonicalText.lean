import Screener.Model.Reply
import Screener.Proofs.Digest
import Screener.Proofs.Query.Readers

namespace Screener

open Json Json.Codec

section

variable {depth : ℕ}

namespace Clause

variable {c : Clause}

theorem readsBack (hv : c.value.WellFormed) (hd : c.value.depth ≤ depth) :
    codec.ReadsBack (depth + 1) c := by
  have hvalue : (Fields.cons (.defaulted "value" any .null) .none).ReadsBack depth ["value"]
      (c.value, ()) :=
    Fields.readsBack_cons (readsBack_any hv hd) Fields.readsBack_none (by simp)
  have hoperator : (Fields.cons (.required "operator" text) _).ReadsBack depth _
      (c.operator, c.value, ()) :=
    Fields.readsBack_cons (readsBack_text c.operator) hvalue (by simp)
  have hfield : (Fields.cons (.required "field" text) _).ReadsBack depth _
      (c.field, c.operator, c.value, ()) :=
    Fields.readsBack_cons (readsBack_text c.field) hoperator (by simp)
  exact reads_via (readsBack_record hfield "FilterClause") _ _

theorem reads_toJson (hv : c.value.WellFormed) (hd : c.value.depth ≤ depth) :
    any.Reads (depth + 1) (codec.write c) c.toJson := by
  have hentries : List.Forall₂ (fun e w => e.1 = w.1 ∧ any.Reads depth e.2 w.2)
      [("field", writeString c.field), ("operator", writeString c.operator),
        ("value", c.value.write)]
      [("field", .string c.field), ("operator", .string c.operator), ("value", c.value)] :=
    .cons ⟨rfl, reads_string c.field depth⟩ <| .cons ⟨rfl, reads_string c.operator depth⟩ <|
      .cons ⟨rfl, readsBack_any hv hd⟩ .nil
  exact reads_object hentries

end Clause

namespace SortKey

theorem readsBack (k : SortKey) : codec.ReadsBack (depth + 1) k := by
  have hname : [Direction.ascending, .descending].find? (·.name = k.direction.name) =
      some k.direction := by
    cases k.direction <;> rfl
  have hdirection : (Fields.cons (.defaulted "direction" Direction.codec .ascending)
      .none).ReadsBack depth ["direction"] (k.direction, ()) :=
    Fields.readsBack_cons (readsBack_choice hname) Fields.readsBack_none (by simp)
  have hfield : (Fields.cons (.required "field" text) _).ReadsBack depth _
      (k.field, k.direction, ()) :=
    Fields.readsBack_cons (readsBack_text k.field) hdirection (by simp)
  exact reads_via (readsBack_record hfield "OrderBy") _ _

theorem reads_toJson (k : SortKey) : any.Reads (depth + 1) (codec.write k) k.toJson := by
  have hentries : List.Forall₂ (fun e w => e.1 = w.1 ∧ any.Reads depth e.2 w.2)
      [("field", writeString k.field), ("direction", writeString k.direction.name)]
      [("field", .string k.field), ("direction", .string k.direction.name)] :=
    .cons ⟨rfl, reads_string k.field depth⟩ <|
      .cons ⟨rfl, reads_string k.direction.name depth⟩ .nil
  exact reads_object hentries

end SortKey

namespace Query

def WellFormed (q : Query) : Prop := ∀ c ∈ q.clauses, c.value.WellFormed

variable {q : Query}

theorem readsBack (hq : q.WellFormed) (hd : ∀ c ∈ q.clauses, c.value.depth ≤ depth) :
    codec.ReadsBack (depth + 3) q := by
  have hlimit : (Fields.cons (.defaulted "limit" nat32 (UInt32.ofNat defaultLimit))
      .none).ReadsBack (depth + 2) ["limit"] (q.limit, ()) :=
    Fields.readsBack_cons (readsBack_nat32 q.limit) Fields.readsBack_none (by simp)
  have hsort : SortKey.codec.optional.ReadsBack (depth + 2) q.order := by
    cases q.order with
    | none => exact readsBack_optional_none _
    | some k =>
      have hbrace : (SortKey.codec.write k).head? = some '{' := rfl
      exact readsBack_optional_some k.readsBack (by simp [hbrace])
  have horder : (Fields.cons (.defaulted "order_by" SortKey.codec.optional none) _).ReadsBack
      (depth + 2) _ (q.order, q.limit, ()) :=
    Fields.readsBack_cons hsort hlimit (by simp)
  have hclauses : Clause.codec.list.ReadsBack (depth + 2) q.clauses :=
    readsBack_list fun c hc => Clause.readsBack (hq c hc) (hd c hc)
  have hfilters : (Fields.cons (.defaulted "filters" Clause.codec.list []) _).ReadsBack
      (depth + 2) _ (q.clauses, q.order, q.limit, ()) :=
    Fields.readsBack_cons hclauses horder (by simp)
  exact reads_via (readsBack_record hfilters "QueryIr") _ _

theorem reads_toJson (hq : q.WellFormed) (hd : ∀ c ∈ q.clauses, c.value.depth ≤ depth) :
    any.Reads (depth + 3) (codec.write q) q.toJson := by
  have hclauses : any.Reads (depth + 2) (Clause.codec.list.write q.clauses)
      (.array (q.clauses.map Clause.toJson)) := by
    refine reads_array ?_
    rw [List.forall₂_map_left_iff, List.forall₂_map_right_iff, List.forall₂_same]
    exact fun c hc => Clause.reads_toJson (hq c hc) (hd c hc)
  have horder : any.Reads (depth + 2) (SortKey.codec.optional.write q.order)
      ((q.order.map SortKey.toJson).getD .null) := by
    cases q.order with
    | none => exact reads_null _
    | some k => exact k.reads_toJson
  have hlimit : any.Reads (depth + 2) (nat32.write q.limit) (.int q.limit.toNat) :=
    reads_int (isWhole_toNat q.limit) _
  have hentries : List.Forall₂ (fun e w => e.1 = w.1 ∧ any.Reads (depth + 2) e.2 w.2)
      [("filters", Clause.codec.list.write q.clauses),
        ("order_by", SortKey.codec.optional.write q.order), ("limit", nat32.write q.limit)]
      [("filters", .array (q.clauses.map Clause.toJson)),
        ("order_by", (q.order.map SortKey.toJson).getD .null), ("limit", .int q.limit.toNat)] :=
    .cons ⟨rfl, hclauses⟩ <| .cons ⟨rfl, horder⟩ <| .cons ⟨rfl, hlimit⟩ .nil
  exact reads_object hentries

end Query

end

theorem Clause.sound_ofJson? {v : Json} (hv : v.WellFormed) {c : Clause} (h : ofJson? v = some c) :
    c.value.WellFormed ∧ c.value.depth < v.depth := by
  obtain ⟨field, hfield, h⟩ := Option.bind_eq_some_iff.mp h
  obtain ⟨operator, -, h⟩ := Option.bind_eq_some_iff.mp h
  cases h
  obtain ⟨w, hw, -⟩ := Option.bind_eq_some_iff.mp hfield
  cases hvalue : v.get? "value" with
  | none => exact ⟨.null, (Nat.zero_le _).trans_lt (depth_get hw)⟩
  | some u => exact ⟨hv.get hvalue, depth_get hvalue⟩

namespace Query

/-- The clauses lie three levels down in a document. -/
theorem sound_ofJson {v : Json} (hv : v.WellFormed) {c : Clause} (hc : c ∈ (ofJson v).clauses) :
    c.value.WellFormed ∧ c.value.depth + 3 ≤ v.depth := by
  obtain ⟨item, hitem, hread⟩ := List.mem_filterMap.mp hc
  cases hitems : (v.get? "filters").bind items? with
  | none =>
    rw [hitems] at hitem
    cases hitem
  | some items =>
    rw [hitems] at hitem
    obtain ⟨w, hw, hlist⟩ := Option.bind_eq_some_iff.mp hitems
    obtain rfl : w = .array items := by
      cases w <;> simp_all [items?]
    have hfilters := depth_get hw
    have hmember : item.depth < (Json.array items).depth := depth_mem hitem
    obtain ⟨hvalue, hdepth⟩ := Clause.sound_ofJson? ((hv.get hw).mem hitem) hread
    exact ⟨hvalue, by omega⟩

theorem text_inj {q q' : Query} (hq : q.WellFormed) (hq' : q'.WellFormed) (h : q.text = q'.text) :
    q = q' := by
  -- Both are read back with as many levels as the deeper of the two needs.
  have hdepth : ∀ c ∈ q.clauses ++ q'.clauses,
      c.value.depth ≤ depthOfItems ((q.clauses ++ q'.clauses).map Clause.value) :=
    fun c hc => depth_le_of_mem (List.mem_map_of_mem hc)
  have hback := readsBack hq fun c hc => hdepth c (List.mem_append_left _ hc)
  have hback' := readsBack hq' fun c hc => hdepth c (List.mem_append_right _ hc)
  exact hback.write_inj hback' (String.ofList_injective h)

theorem ofText_text {q : Query} (hq : q.WellFormed)
    (hd : ∀ c ∈ q.clauses, c.value.depth ≤ 124) : ofText q.text = .ok q.toJson := by
  have hread := (reads_toJson hq hd).ofChars
  rw [ofText, text, toText, String.toList_ofList, hread]
  rfl

end Query

namespace Model

theorem readReply_eq_ok {reply : String} {q : Query} (h : readReply reply = .ok q) :
    ∃ v, ofText reply = .ok v ∧ v.isObject = true ∧ q = Query.ofJson v := by
  unfold readReply at h
  split at h
  · cases h
  · rename_i v hv
    split at h
    · rename_i hobject
      cases h
      exact ⟨v, hv, hobject, rfl⟩
    · cases h

/-- What is read from a reply is nested no deeper than its canonical text may be. -/
theorem readReply_sound {reply : String} {q : Query} (h : readReply reply = .ok q) :
    q.WellFormed ∧ ∀ c ∈ q.clauses, c.value.depth ≤ 124 := by
  obtain ⟨v, hv, -, rfl⟩ := readReply_eq_ok h
  obtain ⟨hwell, hdepth⟩ := ofText_sound hv
  have hclauses := fun c hc => Query.sound_ofJson hwell (c := c) hc
  refine ⟨fun c hc => (hclauses c hc).1, fun c hc => ?_⟩
  have hlevels := (hclauses c hc).2
  unfold depthLimit at hdepth
  omega

theorem readReply_text {reply : String} {q : Query} (h : readReply reply = .ok q) :
    readReply q.text = .ok q := by
  obtain ⟨hq, hd⟩ := readReply_sound h
  obtain ⟨v, -, -, rfl⟩ := readReply_eq_ok h
  rw [readReply, Query.ofText_text hq hd]
  show Except.ok (Query.ofJson (Query.ofJson v).toJson) = _
  rw [Query.ofJson_toJson, Query.normalized_ofJson]

end Model

namespace Query

/-- The canonical text is read as the query it was written for, so it tells queries apart, and two
queries with one digest are two messages with one hash. A model may as well reply with the canonical
text of the query that its reply was read as. -/
theorem text_canonical :
    (∀ q : Query, q.WellFormed → (∀ c ∈ q.clauses, c.value.depth ≤ 124) →
      codec.readText q.text = .ok q) ∧
    (∀ q q' : Query, q.WellFormed → q'.WellFormed → q ≠ q' →
      q.text ≠ q'.text ∧ Digest.message q.text ≠ Digest.message q'.text ∧
      (q.fingerprint = q'.fingerprint →
        Digest.sha256 (Digest.message q.text) = Digest.sha256 (Digest.message q'.text))) ∧
    ∀ reply q, Model.readReply reply = .ok q → Model.readReply q.text = .ok q := by
  refine ⟨fun q hq hd => (readsBack hq hd).readText, fun q q' hq hq' hne => ?_,
    fun reply q h => Model.readReply_text h⟩
  have htext : q.text ≠ q'.text := fun h => hne (text_inj hq hq' h)
  exact ⟨htext, fun h => htext (Digest.message_inj h), Digest.sha256_eq_of_hexOfText_eq⟩

def quotedQuery : Query where
  clauses := [⟨"na\"me\\", "\x01\n", .array [.float Double.zero, .object [("é", .int (-5))]]⟩]
  order := some ⟨"price", .descending⟩
  limit := 0

def integerQuery : Query :=
  { quotedQuery with
    clauses := [⟨"na\"me\\", "\x01\n", .array [.int 0, .object [("é", .int (-5))]]⟩] }

theorem text_canonical_quoted :
    (quotedQuery.WellFormed ∧ (∀ c ∈ quotedQuery.clauses, c.value.depth ≤ 124) ∧
      integerQuery.WellFormed ∧ quotedQuery ≠ integerQuery ∧
      Model.readReply "\x7b\"limit\": 7.0\x7d" = .ok (empty.withLimit 7)) ∧
    codec.readText quotedQuery.text = .ok quotedQuery ∧ quotedQuery.text ≠ integerQuery.text ∧
    Model.readReply (empty.withLimit 7).text = .ok (empty.withLimit 7) := by
  have hinner : (Json.object [("é", .int (-5))]).WellFormed :=
    .object (by decide) (by simpa using .int (by decide))
  have hquoted : quotedQuery.WellFormed := by
    have hvalue := Json.WellFormed.array
      (List.forall_mem_cons.mpr ⟨.float Double.zero, List.forall_mem_singleton.mpr hinner⟩)
    exact List.forall_mem_singleton.mpr hvalue
  have hinteger : integerQuery.WellFormed := by
    have hzero : (Json.int 0).WellFormed := .int (by decide)
    have hvalue := Json.WellFormed.array
      (List.forall_mem_cons.mpr ⟨hzero, List.forall_mem_singleton.mpr hinner⟩)
    exact List.forall_mem_singleton.mpr hvalue
  have hdepth : ∀ c ∈ quotedQuery.clauses, c.value.depth ≤ 124 := by
    simp [quotedQuery, Json.depth, depthOfItems, depthOfEntries]
  have hne : quotedQuery ≠ integerQuery := by
    simp [quotedQuery, integerQuery]
  have hreply : Model.readReply "\x7b\"limit\": 7.0\x7d" = .ok (empty.withLimit 7) := by rfl
  exact ⟨⟨hquoted, hdepth, hinteger, hne, hreply⟩, text_canonical.1 quotedQuery hquoted hdepth,
    (text_canonical.2.1 quotedQuery integerQuery hquoted hinteger hne).1,
    text_canonical.2.2 _ _ hreply⟩

end Query

end Screener
