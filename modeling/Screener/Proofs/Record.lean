import Screener.Proofs.Json.Documents
import Screener.Proofs.Timestamp
import Screener.Record

namespace Screener

open Json

/-- The characters stand for themselves in a string. -/
def Json.Plain (cs : List Char) : Prop := ∀ c ∈ cs, escape c = [c]

theorem Json.Plain.append {a b : List Char} (ha : Plain a) (hb : Plain b) : Plain (a ++ b) :=
  List.forall_mem_append.mpr ⟨ha, hb⟩

theorem Json.Plain.cons {c : Char} {cs : List Char} (hcs : Plain cs)
    (hc : escape c = [c] := by decide) : Plain (c :: cs) :=
  List.forall_mem_cons.mpr ⟨hc, hcs⟩

theorem Json.plain_digits {cs : List Char} (h : ∀ c ∈ cs, isDigit c = true) : Plain cs := by
  intro c hc
  have hdigit := h c hc
  unfold escape
  split
  case h_8 =>
    have hzero : '0' ≤ c := by
      rw [isDigit, Bool.and_eq_true, decide_eq_true_iff] at hdigit
      exact hdigit.1
    have hlow : ¬ c.toNat < 0x20 := not_lt.mpr (le_trans (by decide) (Char.le_def.mp hzero))
    rw [if_neg hlow]
  all_goals cases hdigit

theorem Json.Plain.writeString {cs : List Char} (h : Plain cs) :
    Json.writeString (String.ofList cs) = '"' :: cs ++ ['"'] := by
  have hself : cs.flatMap escape = cs := by
    induction cs with
    | nil => rfl
    | cons c cs ih =>
      obtain ⟨hc, hcs⟩ := List.forall_mem_cons.mp h
      rw [List.flatMap_cons, hc, ih hcs]
      rfl
  rw [Json.writeString, String.toList_ofList, hself]

namespace Timestamp

theorem plain_padded (width n : ℕ) : Plain (padded width n) :=
  plain_digits fun _ hc => isDigit_of_mem_padded hc

theorem plain_writeYear (y : ℤ) : Plain (writeYear y) := by
  unfold writeYear
  split
  · exact plain_padded _ _
  · split <;> exact (plain_padded _ _).cons

theorem plain_writeFraction (nano : ℕ) : Plain (writeFraction nano) := by
  unfold writeFraction
  split_ifs
  · exact fun _ => nofun
  all_goals exact (plain_padded _ _).cons

theorem plain_write (t : Timestamp) : Plain t.write := by
  have hyear := plain_writeYear t.year
  have hpart := plain_padded 2
  simp only [write]
  exact ((((((hyear.append (hpart _).cons).append (hpart _).cons).append (hpart _).cons).append
    (hpart _).cons).append (hpart _).cons).append (plain_writeFraction _))

end Timestamp

namespace Json.Codec

section

variable {σ α β : Type} {depth : ℕ}

/-- What is written for `a` is the text of some value. -/
def Writes (c : Codec α) (depth : ℕ) (a : α) : Prop := ∃ v, any.Reads depth (c.write a) v

theorem writes_via {c : Codec α} {into : α → β} {back : β → α} {b : β}
    (h : c.Writes depth (back b)) : (c.via into back).Writes depth b := h

theorem writes_text (s : String) : text.Writes depth s := ⟨_, reads_string s depth⟩

theorem writes_double (x : Double) : double.Writes depth x := ⟨_, reads_float x depth⟩

theorem int64_bounds (n : Int64) : -int64Bound ≤ n.toInt ∧ n.toInt < int64Bound :=
  ⟨n.le_toInt, n.toInt_lt⟩

theorem isWhole_toInt (n : Int64) : IsWhole n.toInt :=
  ⟨(int64_bounds n).1, (int64_bounds n).2.trans (by decide)⟩

theorem writes_int64 (n : Int64) : int64.Writes depth n := ⟨_, reads_int (isWhole_toInt n) depth⟩

theorem write_timestamp (t : Timestamp) : timestamp.write t = writeString t.text :=
  t.plain_write.writeString.symm

theorem writes_timestamp (t : Timestamp) : timestamp.Writes depth t :=
  ⟨.string t.text, write_timestamp t ▸ reads_string t.text depth⟩

theorem writes_optional {c : Codec α} {a : Option α} (h : ∀ b, a = some b → c.Writes depth b) :
    c.optional.Writes depth a := by
  cases a with
  | none => exact ⟨_, reads_null depth⟩
  | some b => exact h b rfl

theorem writes_list {c : Codec α} {as : List α} (h : ∀ a ∈ as, c.Writes depth a) :
    ∃ vs, vs.length = as.length ∧ any.Reads (depth + 1) (c.list.write as) (.array vs) := by
  have hall : ∃ vs, List.Forall₂ (any.Reads depth) (as.map c.write) vs := by
    induction as with
    | nil => exact ⟨[], .nil⟩
    | cons a as ih =>
      obtain ⟨⟨v, hv⟩, has⟩ := List.forall_mem_cons.mp h
      obtain ⟨vs, hvs⟩ := ih has
      exact ⟨v :: vs, .cons hv hvs⟩
  obtain ⟨vs, hvs⟩ := hall
  exact ⟨vs, by simpa using hvs.length_eq.symm, reads_array hvs⟩

/-- Each field of a record is written as its key and the text of some value. -/
def Fields.Writes (fields : Fields σ α) (depth : ℕ) (a : α) : Prop :=
  ∃ (es : List (String × List Char)) (ws : List (String × Json)),
    fields.write a = es.map entryText ∧
      List.Forall₂ (fun e w => e.1 = w.1 ∧ any.Reads depth e.2 w.2) es ws

theorem Fields.writes_none : Fields.none.Writes depth () := ⟨[], [], rfl, .nil⟩

theorem Fields.writes_cons {field : Field α} {more : Fields σ β} {a : α} {b : β}
    (ha : field.codec.Writes depth a) (hb : more.Writes depth b) :
    (Fields.cons field more).Writes depth (a, b) := by
  obtain ⟨v, hv⟩ := ha
  obtain ⟨es, ws, hes, hread⟩ := hb
  refine ⟨(field.name, field.codec.write a) :: es, (field.name, v) :: ws, ?_, .cons ⟨rfl, hv⟩ hread⟩
  show writeEntry field.name (field.codec.write a) :: more.write b = _
  rw [hes]
  rfl

theorem writes_record {fields : Fields σ α} {a : α} (h : fields.Writes depth a) (name : String) :
    (record name fields).Writes (depth + 1) a := by
  obtain ⟨es, ws, hes, hread⟩ := h
  refine ⟨ofEntries ws, ?_⟩
  show any.Reads (depth + 1) (brace (fields.write a)) _
  rw [hes]
  exact reads_object hread

end

end Json.Codec

open Json.Codec

theorem Record.writes (r : Record) (depth : ℕ) : codec.Writes (depth + 1) r := by
  have htext : ∀ s : Option String, text.optional.Writes depth s :=
    fun s => writes_optional fun b _ => writes_text b
  have hdouble : ∀ x : Option Double, double.optional.Writes depth x :=
    fun x => writes_optional fun b _ => writes_double b
  refine writes_via (writes_record ?_ "Record")
  exact Fields.writes_cons (writes_text _) <| Fields.writes_cons (writes_text _) <|
    Fields.writes_cons (htext _) <| Fields.writes_cons (htext _) <|
    Fields.writes_cons (writes_double _) <| Fields.writes_cons (hdouble _) <|
    Fields.writes_cons (writes_optional fun n _ => writes_int64 n) <|
    Fields.writes_cons (hdouble _) <| Fields.writes_cons (hdouble _) <|
    Fields.writes_cons (writes_optional fun t _ => writes_timestamp t) Fields.writes_none

end Screener
