import Screener.Proofs.Json.Lookup
import Screener.Proofs.Record

namespace Screener.Json

theorem get?_ofEntries_eq_none {ws : List (String × Json)} {k : String}
    (h : k ∉ ws.map Prod.fst) : (ofEntries ws).get? k = none := by
  induction ws with
  | nil => rfl
  | cons w ws ih =>
    rw [List.map_cons, List.mem_cons, not_or] at h
    rw [← List.nil_append (w :: ws), get?_ofEntries_middle, ih h.2, if_neg (Ne.symm h.1)]
    rfl

theorem get?_ofEntries_of_mem {ws : List (String × Json)} (h : (ws.map Prod.fst).Nodup)
    {w : String × Json} (hw : w ∈ ws) : (ofEntries ws).get? w.1 = some w.2 := by
  obtain ⟨before, after, rfl⟩ := List.append_of_mem hw
  obtain ⟨k, v⟩ := w
  rw [List.map_append, List.map_cons, List.nodup_append] at h
  have hafter : k ∉ after.map Prod.fst := (List.nodup_cons.mp h.2.1).1
  rw [get?_ofEntries_middle, get?_ofEntries_eq_none hafter, if_pos rfl]
  rfl

theorem ofEntries_sorted (ws : List (String × Json)) :
    ∃ entries, ofEntries ws = object entries ∧ Sorted entries := by
  refine ⟨_, rfl, ?_⟩
  have hfold : ∀ sorted, Sorted sorted →
      Sorted (ws.foldl (fun sorted w => insert w.1 w.2 sorted) sorted) := by
    induction ws with
    | nil => exact fun _ h => h
    | cons w ws ih => exact fun sorted h => ih _ (h.insert w.1 w.2)
  exact hfold [] .nil

namespace Codec

section

variable {σ α β : Type} {depth : ℕ}

/-- What is written for `a` is the text of `v`, and `v` is read as `a`. -/
structure Conveys (c : Codec α) (depth : ℕ) (a : α) (v : Json) : Prop where
  reads : any.Reads depth (c.write a) v
  ofJson : c.ofJson v = .ok a

theorem conveys_text (s : String) : text.Conveys depth s (.string s) :=
  ⟨reads_string s depth, rfl⟩

theorem conveys_double (x : Double) : double.Conveys depth x (.float x) :=
  ⟨reads_float x depth, rfl⟩

theorem conveys_int64 (n : Int64) : int64.Conveys depth n (.int n.toInt) := by
  refine ⟨reads_int (isWhole_toInt n) depth, ?_⟩
  show (if _ then Except.ok (Int64.ofInt n.toInt) else _) = _
  rw [if_pos (int64_bounds n), Int64.ofInt_toInt]

theorem conveys_timestamp {t : Timestamp} (h : t.Valid) :
    timestamp.Conveys depth t (.string t.text) where
  reads := write_timestamp t ▸ reads_string t.text depth
  ofJson := by
    simp only [timestamp, parsed, Timestamp.ofChars_text h]
    rfl

theorem conveys_none (c : Codec α) : c.optional.Conveys depth none .null :=
  ⟨reads_null depth, rfl⟩

theorem conveys_some {c : Codec α} {a : α} {v : Json} (h : c.Conveys depth a v) (hv : v ≠ .null) :
    c.optional.Conveys depth (some a) v :=
  ⟨h.reads, (ofJson_optional c v (some a)).mpr (.inr ⟨a, hv, h.ofJson, rfl⟩)⟩

theorem conveys_list {c : Codec α} {as : List α} (h : ∀ a ∈ as, ∃ v, c.Conveys depth a v) :
    ∃ vs, vs.length = as.length ∧ c.list.Conveys (depth + 1) as (.array vs) := by
  have hall : ∃ vs, List.Forall₂ (fun a v => c.Conveys depth a v) as vs := by
    induction as with
    | nil => exact ⟨[], .nil⟩
    | cons a as ih =>
      obtain ⟨⟨v, hv⟩, has⟩ := List.forall_mem_cons.mp h
      obtain ⟨vs, hvs⟩ := ih has
      exact ⟨v :: vs, .cons hv hvs⟩
  obtain ⟨vs, hvs⟩ := hall
  refine ⟨vs, hvs.length_eq.symm, reads_array ?_, ?_⟩
  · rw [List.forall₂_map_left_iff]
    exact hvs.imp fun _ _ h => h.reads
  · exact (ofJson_list c _ as).mpr ⟨vs, rfl, (hvs.imp fun _ _ h => h.ofJson).flip⟩

/-- The fields are written as entries under their keys, and are found in any object that has these
entries. -/
def Fields.Conveys (fields : Fields σ α) (depth : ℕ) (keys : List String) (a : α) : Prop :=
  ∃ (es : List (String × List Char)) (ws : List (String × Json)),
    fields.write a = es.map entryText ∧ ws.map Prod.fst = keys ∧
      List.Forall₂ (fun e w => e.1 = w.1 ∧ any.Reads depth e.2 w.2) es ws ∧
      ∀ entries, (entries.map Prod.fst).Nodup →
        (∀ w ∈ ws, (object entries).get? w.1 = some w.2) → fields.Accepts entries a

theorem Fields.conveys_none : Fields.none.Conveys depth [] () :=
  ⟨[], [], rfl, rfl, .nil, fun _ _ _ => accepts_none⟩

theorem Fields.conveys_cons {field : Field α} {more : Fields σ β} {keys : List String} {a : α}
    {b : β} {v : Json} (ha : field.codec.Conveys depth a v) (hb : more.Conveys depth keys b)
    (hname : field.name ∉ keys) :
    (Fields.cons field more).Conveys depth (field.name :: keys) (a, b) := by
  obtain ⟨es, ws, hwrite, rfl, hreads, haccepts⟩ := hb
  refine ⟨(field.name, field.codec.write a) :: es, (field.name, v) :: ws, ?_, rfl,
    .cons ⟨rfl, ha.reads⟩ hreads, fun entries hkeys hfound => ?_⟩
  · show writeEntry field.name (field.codec.write a) :: more.write b = _
    rw [hwrite]
    rfl
  · obtain ⟨hfirst, hmore⟩ := List.forall_mem_cons.mp hfound
    rw [accepts_cons field more hkeys, hfirst]
    refine ⟨ha.ofJson, haccepts _ (nodup_without hkeys _) fun w hw => ?_⟩
    have hne : w.1 ≠ field.name := by
      rintro he
      exact hname (he ▸ List.mem_map_of_mem hw)
    rw [get?_without hne, hmore w hw]

theorem conveys_record {fields : Fields σ α} {keys : List String} {a : α}
    (h : fields.Conveys depth keys a) (hkeys : keys.Nodup) (name : String) :
    ∃ v, (record name fields).Conveys (depth + 1) a v := by
  obtain ⟨es, ws, hwrite, rfl, hreads, haccepts⟩ := h
  obtain ⟨entries, hobject, hsorted⟩ := ofEntries_sorted ws
  have hall : fields.Accepts entries a :=
    haccepts entries hsorted.nodup fun w hw => hobject ▸ get?_ofEntries_of_mem hkeys hw
  refine ⟨ofEntries ws, ?_, ?_⟩
  · show any.Reads (depth + 1) (brace (fields.write a)) _
    rw [hwrite]
    exact reads_object hreads
  · rw [hobject]
    exact (ofJson_record name fields a).mpr hall

theorem conveys_via {c : Codec α} {into : α → β} {back : β → α} {b : β}
    (h : ∃ v, c.Conveys depth (back b) v) (hback : into (back b) = b) :
    ∃ v, (c.via into back).Conveys depth b v := by
  obtain ⟨v, hreads, hjson⟩ := h
  refine ⟨v, hreads, ?_⟩
  show (c.ofJson v).map into = _
  rw [hjson, Except.map, hback]

end

end Codec

end Screener.Json
