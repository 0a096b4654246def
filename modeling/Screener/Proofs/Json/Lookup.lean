import Screener.Proofs.Json.Documents

namespace Screener.Json

theorem Sorted.nodup {entries : List (String × Json)} (h : Sorted entries) :
    (entries.map Prod.fst).Nodup := by
  rw [List.Nodup, List.pairwise_map]
  exact List.Pairwise.imp String.ne_of_lt h

theorem WellFormed.nodup {entries : List (String × Json)} (h : (Json.object entries).WellFormed) :
    (entries.map Prod.fst).Nodup := by
  cases h with
  | object hs => exact hs.nodup

theorem WellFormed.get {v w : Json} {k : String} (h : v.WellFormed) (hw : v.get? k = some w) :
    w.WellFormed := by
  cases h with
  | @object entries _ hall =>
    obtain ⟨e, he, rfl⟩ := Option.map_eq_some_iff.mp hw
    exact hall e (List.mem_of_find?_eq_some he)
  | _ => cases hw

theorem WellFormed.mem {items : List Json} {v : Json} (h : (Json.array items).WellFormed)
    (hv : v ∈ items) : v.WellFormed := by
  cases h with
  | array hall => exact hall v hv

theorem depth_get {v w : Json} {k : String} (hw : v.get? k = some w) : w.depth < v.depth := by
  cases v with
  | object entries =>
    obtain ⟨e, he, rfl⟩ := Option.map_eq_some_iff.mp hw
    rw [Json.depth]
    exact Nat.lt_succ_of_le (depth_le_of_mem_entries (List.mem_of_find?_eq_some he))
  | _ => cases hw

theorem depth_mem {items : List Json} {v : Json} (hv : v ∈ items) :
    v.depth < (array items).depth := by
  rw [Json.depth]
  exact Nat.lt_succ_of_le (depth_le_of_mem hv)

theorem get?_cons_self (k : String) (v : Json) (entries : List (String × Json)) :
    (object ((k, v) :: entries)).get? k = some v := by
  simp [get?]

theorem get?_cons_ne {k k' : String} (h : k' ≠ k) (v : Json) (entries : List (String × Json)) :
    (object ((k', v) :: entries)).get? k = (object entries).get? k := by
  simp [get?, h]

theorem get?_eq_none {k : String} {entries : List (String × Json)}
    (h : k ∉ entries.map Prod.fst) : (object entries).get? k = none := by
  have hnone : (entries.find? fun e => decide (e.1 = k)) = none := by
    rw [List.find?_eq_none]
    intro e he hk
    exact h (of_decide_eq_true hk ▸ List.mem_map_of_mem he)
  rw [get?, hnone]
  rfl

def without (k : String) (entries : List (String × Json)) : List (String × Json) :=
  entries.filter fun e => decide (e.1 ≠ k)

theorem without_cons_self (k : String) (v : Json) (entries : List (String × Json)) :
    without k ((k, v) :: entries) = without k entries := by
  simp [without]

theorem without_cons_ne {k k' : String} (h : k' ≠ k) (v : Json) (entries : List (String × Json)) :
    without k ((k', v) :: entries) = (k', v) :: without k entries := by
  simp [without, h]

theorem get?_without {k k' : String} (h : k' ≠ k) (entries : List (String × Json)) :
    (object (without k entries)).get? k' = (object entries).get? k' := by
  induction entries with
  | nil => rfl
  | cons e entries ih =>
    obtain ⟨a, v⟩ := e
    by_cases ha : a = k
    · rw [ha, without_cons_self, ih, get?_cons_ne h.symm]
    · rw [without_cons_ne ha]
      by_cases hk : a = k'
      · rw [hk, get?_cons_self, get?_cons_self]
      · rw [get?_cons_ne hk, get?_cons_ne hk, ih]

theorem nodup_without {entries : List (String × Json)} (h : (entries.map Prod.fst).Nodup)
    (k : String) : ((without k entries).map Prod.fst).Nodup :=
  h.sublist (List.filter_sublist.map Prod.fst)

/-- Entries with different keys may be added in any order. -/
theorem insert_comm {k l : String} (h : k ≠ l) (v w : Json) (entries : List (String × Json)) :
    insert k v (insert l w entries) = insert l w (insert k v entries) := by
  -- Where each of the two goes is decided by the keys that are there, not by the other one.
  induction entries with
  | nil => grind [insert]
  | cons e entries ih => grind [insert]

theorem get?_cons (k : String) (v : Json) (entries : List (String × Json)) (k' : String) :
    (object ((k, v) :: entries)).get? k' = if k = k' then some v else (object entries).get? k' := by
  split
  · rename_i hk
    rw [← hk, get?_cons_self]
  · rename_i hk
    rw [get?_cons_ne hk]

theorem get?_insert (k : String) (v : Json) (entries : List (String × Json)) (k' : String) :
    (object (insert k v entries)).get? k' = if k = k' then some v else (object entries).get? k' := by
  fun_induction insert k v entries with
  | case1 => exact get?_cons k v [] k'
  | case2 a x rest hlt => exact get?_cons k v _ k'
  | case3 x rest hlt =>
    rw [get?_cons, get?_cons]
    split_ifs
    all_goals rfl
  | case4 a x rest hlt hne ih =>
    rw [get?_cons, get?_cons, ih]
    split_ifs with ha hk hk
    · exact absurd (hk.trans ha.symm) hne
    all_goals rfl

theorem get?_ofEntries_append (before after : List (String × Json)) (k : String) :
    (ofEntries (before ++ after)).get? k =
      ((ofEntries after).get? k).or ((ofEntries before).get? k) := by
  induction after using List.reverseRecOn with
  | nil => simp [ofEntries, get?]
  | append_singleton after e ih =>
    obtain ⟨k', v⟩ := e
    have hlast : ∀ entries, (ofEntries (entries ++ [(k', v)])).get? k =
        if k' = k then some v else (ofEntries entries).get? k := by
      intro entries
      rw [ofEntries, List.foldl_append]
      exact get?_insert k' v _ k
    rw [← List.append_assoc, hlast, hlast, ih]
    split_ifs
    all_goals rfl

theorem get?_ofEntries_middle (before after : List (String × Json)) (k' : String) (v : Json)
    (k : String) :
    (ofEntries (before ++ (k', v) :: after)).get? k =
      (((ofEntries after).get? k).or (if k' = k then some v else none)).or
        ((ofEntries before).get? k) := by
  rw [get?_ofEntries_append, ← List.singleton_append, get?_ofEntries_append]
  exact congrArg (fun found => (((ofEntries after).get? k).or found).or _) (get?_cons k' v [] k)

theorem ofEntries_swap {k l : String} (h : k ≠ l) (v w : Json)
    (before after : List (String × Json)) :
    ofEntries (before ++ (k, v) :: (l, w) :: after) =
      ofEntries (before ++ (l, w) :: (k, v) :: after) := by
  simp only [ofEntries, List.foldl_append, List.foldl_cons, insert_comm h]

namespace Codec

section

variable {σ α β : Type} {entries : List (String × Json)}

/-- A field's value in an object that has `found` under its name. -/
def Field.Gives (field : Field α) (found : Option Json) (a : α) : Prop :=
  match found with
  | some v => field.codec.ofJson v = .ok a
  | none => field.missing = some a

/-- The entries of an object give `a`. -/
def Fields.Accepts (fields : Fields σ α) (entries : List (String × Json)) (a : α) : Prop :=
  ∃ s, putEntries fields entries fields.blank = .ok s ∧ fields.finish s = .ok a

theorem accepts_none : Fields.none.Accepts entries () := by
  refine ⟨(), ?_, rfl⟩
  induction entries with
  | nil => rfl
  | cons e entries ih => exact ih

/-- A slot behind the entries of an object, from what stood in it before. -/
def Field.Fills (field : Field α) (found : Option Json) (slot slot' : Option α) : Prop :=
  match found with
  | some v => ∃ a, field.codec.ofJson v = .ok a ∧ slot' = some a
  | none => slot' = slot

theorem putEntries_cons (field : Field α) (more : Fields σ β)
    (hkeys : (entries.map Prod.fst).Nodup) {slot slot' : Option α} {s s' : σ} :
    putEntries (Fields.cons field more) entries (slot, s) = .ok (slot', s') ↔
      field.Fills ((object entries).get? field.name) slot slot' ∧
        putEntries more (without field.name entries) s = .ok s' := by
  induction entries generalizing slot s with
  | nil =>
    show Except.ok (slot, s) = Except.ok (slot', s') ↔ slot' = slot ∧ Except.ok s = Except.ok s'
    rw [Except.ok.injEq, Except.ok.injEq, Prod.mk.injEq, eq_comm (a := slot)]
  | cons e entries ih =>
    obtain ⟨k, v⟩ := e
    obtain ⟨hk, hmore⟩ := List.nodup_cons.mp hkeys
    by_cases hname : k = field.name
    · subst hname
      have hrest : (object entries).get? field.name = none := get?_eq_none hk
      have hstep : putEntries (Fields.cons field more) ((field.name, v) :: entries) (slot, s) =
          (field.codec.ofJson v).map (fun a => (some a, s)) >>=
            putEntries (Fields.cons field more) entries := by
        simp only [putEntries, Fields.cons, if_true]
      rw [hstep, without_cons_self, get?_cons_self]
      cases hv : field.codec.ofJson v with
      | error e => simp [Field.Fills, hv, Except.map, bind, Except.bind]
      | ok a =>
        have hslot : field.Fills none (some a) slot' ↔ field.Fills (some v) slot slot' := by
          simp [Field.Fills, hv]
        rw [← hslot, ← hrest]
        exact ih hmore
    · have hput : (Fields.cons field more).putKey k v (slot, s) =
          (more.putKey k v s).map fun r => r.map fun s => (slot, s) := by
        simp only [Fields.cons, if_neg hname]
      rw [without_cons_ne hname, get?_cons_ne hname, putEntries, putEntries, hput]
      cases more.putKey k v s with
      | none => exact ih hmore
      | some r =>
        cases r with
        | error e => simp [Except.map, bind, Except.bind]
        | ok s'' => exact ih hmore

theorem finish_cons (field : Field α) (more : Fields σ β) {slot : Option α} {s : σ} {a : α}
    {b : β} :
    (Fields.cons field more).finish (slot, s) = .ok (a, b) ↔
      slot.or field.missing = some a ∧ more.finish s = .ok b := by
  simp only [Fields.cons]
  cases slot with
  | some a' => cases more.finish s <;> simp [bind, Except.bind]
  | none =>
    cases field.missing with
    | none => simp [bind, Except.bind]
    | some a' => cases more.finish s <;> simp [bind, Except.bind]

theorem gives_iff (field : Field α) (found : Option Json) (a : α) :
    field.Gives found a ↔ ∃ slot, field.Fills found none slot ∧ slot.or field.missing = some a := by
  cases found with
  | none => simp [Field.Gives, Field.Fills]
  | some v =>
    constructor
    · exact fun h => ⟨some a, ⟨a, h, rfl⟩, rfl⟩
    · rintro ⟨slot, ⟨a', ha', rfl⟩, h⟩
      cases h
      exact ha'

/-- A record with one field more: the field is looked up, and the others do not see its entry. -/
theorem accepts_cons (field : Field α) (more : Fields σ β) (hkeys : (entries.map Prod.fst).Nodup)
    {a : α} {b : β} :
    (Fields.cons field more).Accepts entries (a, b) ↔
      field.Gives ((object entries).get? field.name) a ∧
        more.Accepts (without field.name entries) b := by
  rw [gives_iff]
  constructor
  · rintro ⟨⟨slot, s⟩, hs, hfinish⟩
    obtain ⟨hslot, hs⟩ := (putEntries_cons field more hkeys).mp hs
    obtain ⟨ha, hb⟩ := (finish_cons field more).mp hfinish
    exact ⟨⟨slot, hslot, ha⟩, s, hs, hb⟩
  · rintro ⟨⟨slot, hslot, ha⟩, s, hs, hb⟩
    exact ⟨(slot, s), (putEntries_cons field more hkeys).mpr ⟨hslot, hs⟩,
      (finish_cons field more).mpr ⟨ha, hb⟩⟩

theorem ofJson_record (name : String) (fields : Fields σ α) (a : α) :
    (record name fields).ofJson (object entries) = .ok a ↔ fields.Accepts entries a := by
  constructor
  · exact fun h => Except.bind_eq_ok h
  · rintro ⟨s, hs, ha⟩
    simp only [record, hs, bind, Except.bind, ha]

end

section

variable {α β : Type}

theorem ofJson_via (c : Codec α) {into : α → β} {back : β → α} (hinto : ∀ b, into (back b) = b)
    (hback : ∀ a, back (into a) = a) (v : Json) (b : β) :
    (c.via into back).ofJson v = .ok b ↔ c.ofJson v = .ok (back b) := by
  show (c.ofJson v).map into = .ok b ↔ _
  cases c.ofJson v with
  | error e => simp [Except.map]
  | ok a =>
    rw [Except.map, Except.ok.injEq, Except.ok.injEq]
    exact ⟨fun h => h ▸ (hback a).symm, fun h => h ▸ hinto b⟩

theorem ofJson_text (v : Json) (s : String) : text.ofJson v = .ok s ↔ v = string s := by
  cases v <;> simp [text, parsed, refuseJson]

theorem ofJson_optional (c : Codec α) (v : Json) (a : Option α) :
    c.optional.ofJson v = .ok a ↔
      (v = null ∧ a = none) ∨ ∃ b, v ≠ null ∧ c.ofJson v = .ok b ∧ a = some b := by
  by_cases hv : v = null
  · subst hv
    simp [optional, eq_comm]
  · have hother : c.optional.ofJson v = (c.ofJson v).map some := by
      cases v <;> first | rfl | exact absurd rfl hv
    rw [hother]
    cases c.ofJson v <;> simp [Except.map, hv, eq_comm]

theorem readAll_iff (c : Codec α) (items : List Json) (as : List α) :
    readAll c items = .ok as ↔ List.Forall₂ (fun v a => c.ofJson v = .ok a) items as := by
  induction items generalizing as with
  | nil => simp [readAll, eq_comm]
  | cons v items ih =>
    rw [readAll, List.forall₂_cons_left_iff]
    constructor
    · intro h
      obtain ⟨a, ha, h⟩ := Except.bind_eq_ok h
      obtain ⟨tail, htail, h⟩ := Except.bind_eq_ok h
      cases h
      exact ⟨a, tail, ha, (ih tail).mp htail, rfl⟩
    · rintro ⟨a, tail, ha, htail, rfl⟩
      simp only [ha, (ih tail).mpr htail, bind, Except.bind]

theorem ofJson_list (c : Codec α) (v : Json) (as : List α) :
    c.list.ofJson v = .ok as ↔
      ∃ items, v = array items ∧ List.Forall₂ (fun v a => c.ofJson v = .ok a) items as := by
  cases v <;> simp [list, refuseJson, readAll_iff]

theorem ofJson_nat32 (v : Json) (n : UInt32) : nat32.ofJson v = .ok n ↔ v = int n.toNat := by
  cases v with
  | int m =>
    have hn : n.toNat < 4294967296 := n.toNat_lt
    simp only [nat32, whole, number, int.injEq]
    split
    · rename_i hm
      have hsize : m.toNat < 4294967296 := by omega
      rw [Except.ok.injEq, ← UInt32.toNat_inj, UInt32.toNat_ofNat_of_lt' hsize]
      omega
    · simp only [reduceCtorEq, false_iff]
      omega
  | _ => simp [nat32, whole, number, refuseJson]

theorem ofJson_choice (all : List α) (name : α → String) (s : String) (a : α) :
    (choice all name).ofJson (string s) = .ok a ↔ all.find? (name · = s) = some a := by
  simp only [choice]
  cases all.find? (name · = s) <;> simp

@[simp]
theorem Field.name_required (name : String) (c : Codec α) : (Field.required name c).name = name := rfl

@[simp]
theorem Field.name_defaulted (name : String) (c : Codec α) (a : α) :
    (Field.defaulted name c a).name = name := rfl

theorem gives_text (name : String) (found : Option Json) (s : String) :
    (Field.required name text).Gives found s ↔ found = some (string s) := by
  cases found with
  | none => simp [Field.Gives, Field.required]
  | some v => simp [Field.Gives, Field.required, ofJson_text]

theorem gives_any (name : String) (w : Json) (found : Option Json) (v : Json) :
    (Field.defaulted name any w).Gives found v ↔ found.getD w = v := by
  cases found <;> simp [Field.Gives, Field.defaulted, any]

theorem gives_defaulted (name : String) (c : Codec α) (d : α) (found : Option Json) (a : α) :
    (Field.defaulted name c d).Gives found a ↔
      (found = none ∧ a = d) ∨ ∃ v, found = some v ∧ c.ofJson v = .ok a := by
  cases found <;> simp [Field.Gives, Field.defaulted, eq_comm]

end

end Codec

end Screener.Json
