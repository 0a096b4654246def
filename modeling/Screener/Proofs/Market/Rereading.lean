import Screener.Market.Fixture
import Screener.Proofs.Http.Bodies
import Screener.Proofs.Json.Values

namespace Screener

open Json Json.Codec

namespace Json.Codec

section

variable {α : Type} {depth : ℕ}

theorem readsBack_timestamp {t : Timestamp} (h : t.Valid) : timestamp.ReadsBack depth t where
  opens := opens_cons _
  read := by
    intro rest _
    show timestamp.read depth (timestamp.write t ++ rest) = _
    rw [write_timestamp, writeString_append]
    simp only [timestamp, parsed, skipSpace_cons (c := '"') rfl, readString_escaped, bind,
      Except.bind, Timestamp.ofChars_text h]
    rfl

theorem readsBack_int64 (n : Int64) : int64.ReadsBack depth n :=
  readsBack_whole "i64" (int64_bounds n) (isWhole_toInt n) (Int64.ofInt_toInt n)

theorem head?_signed {negative : Bool} {ds : List Char} {v : Json} (h : Numeric negative ds v) :
    (signed negative ds).head? ≠ some 'n' := by
  obtain ⟨⟨c, cs, rfl, hc⟩, -⟩ := h
  cases negative with
  | true => exact nofun
  | false =>
    intro he
    exact ne_of_isDigit hc rfl (Option.some.inj he)

theorem head?_writeFloat (x : Double) : (writeFloat x).head? ≠ some 'n' := by
  rw [writeFloat_eq]
  exact head?_signed (numeric_float x)

theorem readsBack_optional {c : Codec α} (h : ∀ a, c.ReadsBack depth a)
    (hnull : ∀ a, (c.write a).head? ≠ some 'n') (a : Option α) : c.optional.ReadsBack depth a := by
  cases a with
  | none => exact readsBack_optional_none c
  | some a => exact readsBack_optional_some (h a) (hnull a)

theorem readsBack_optional_text (s : Option String) : text.optional.ReadsBack depth s :=
  readsBack_optional readsBack_text (fun _ => nofun) s

theorem readsBack_optional_double (x : Option Double) : double.optional.ReadsBack depth x :=
  readsBack_optional readsBack_double head?_writeFloat x

theorem readsBack_optional_int64 (n : Option Int64) : int64.optional.ReadsBack depth n := by
  refine readsBack_optional readsBack_int64 (fun m => ?_) n
  show (writeInt m.toInt).head? ≠ _
  rw [writeInt_eq]
  exact head?_signed (numeric_int (isWhole_toInt m))

theorem conveys_optional {c : Codec α} (h : ∀ a, ∃ v, v ≠ .null ∧ c.Conveys depth a v)
    (a : Option α) : ∃ v, c.optional.Conveys depth a v := by
  cases a with
  | none => exact ⟨.null, conveys_none c⟩
  | some a =>
    obtain ⟨v, hv, hc⟩ := h a
    exact ⟨v, conveys_some hc hv⟩

end

end Json.Codec

namespace Record

/-- The time of a record, if it has one, is a time that there is. -/
def Dated (r : Record) : Prop := ∀ t, r.createdAt = some t → t.Valid

variable {r : Record} {depth : ℕ}

theorem readsBack (h : r.Dated) : codec.ReadsBack (depth + 1) r := by
  have hcreated : Json.Codec.timestamp.optional.ReadsBack depth r.createdAt := by
    cases hr : r.createdAt with
    | none => exact readsBack_optional_none _
    | some t => exact readsBack_optional_some (readsBack_timestamp (h t hr)) nofun
  refine reads_via (@readsBack_record _ _ depth _ columns _ ?_ "Record") _ _
  refine Fields.readsBack_cons (readsBack_text r.symbol) ?_ (by simp)
  refine Fields.readsBack_cons (readsBack_text r.companyName) ?_ (by simp)
  refine Fields.readsBack_cons (readsBack_optional_text r.sector) ?_ (by simp)
  refine Fields.readsBack_cons (readsBack_optional_text r.industry) ?_ (by simp)
  refine Fields.readsBack_cons (readsBack_double r.price) ?_ (by simp)
  refine Fields.readsBack_cons (readsBack_optional_double r.marketCap) ?_ (by simp)
  refine Fields.readsBack_cons (readsBack_optional_int64 r.volume) ?_ (by simp)
  refine Fields.readsBack_cons (readsBack_optional_double r.peRatio) ?_ (by simp)
  refine Fields.readsBack_cons (readsBack_optional_double r.dividendYield) ?_ (by simp)
  exact Fields.readsBack_cons hcreated Fields.readsBack_none (by simp)

theorem exists_conveys (h : r.Dated) : ∃ v, codec.Conveys (depth + 1) r v := by
  have htext : ∀ s : Option String, ∃ v, text.optional.Conveys depth s v :=
    conveys_optional fun s => ⟨.string s, nofun, conveys_text s⟩
  have hdouble : ∀ x : Option Double, ∃ v, double.optional.Conveys depth x v :=
    conveys_optional fun x => ⟨.float x, nofun, conveys_double x⟩
  have hint : ∀ n : Option Int64, ∃ v, int64.optional.Conveys depth n v :=
    conveys_optional fun n => ⟨.int n.toInt, nofun, conveys_int64 n⟩
  have htime : ∃ v, Json.Codec.timestamp.optional.Conveys depth r.createdAt v := by
    cases hr : r.createdAt with
    | none => exact ⟨.null, conveys_none _⟩
    | some t => exact ⟨_, conveys_some (conveys_timestamp (h t hr)) nofun⟩
  obtain ⟨_, hsector⟩ := htext r.sector
  obtain ⟨_, hindustry⟩ := htext r.industry
  obtain ⟨_, hcap⟩ := hdouble r.marketCap
  obtain ⟨_, hvolume⟩ := hint r.volume
  obtain ⟨_, hratio⟩ := hdouble r.peRatio
  obtain ⟨_, hyield⟩ := hdouble r.dividendYield
  obtain ⟨_, hcreated⟩ := htime
  refine conveys_via (@conveys_record _ _ depth _ columns _ ?_ (by decide) "Record") rfl
  refine Fields.conveys_cons (conveys_text r.symbol) ?_ (by simp)
  refine Fields.conveys_cons (conveys_text r.companyName) ?_ (by simp)
  refine Fields.conveys_cons hsector ?_ (by simp)
  refine Fields.conveys_cons hindustry ?_ (by simp)
  refine Fields.conveys_cons (conveys_double r.price) ?_ (by simp)
  refine Fields.conveys_cons hcap ?_ (by simp)
  refine Fields.conveys_cons hvolume ?_ (by simp)
  refine Fields.conveys_cons hratio ?_ (by simp)
  refine Fields.conveys_cons hyield ?_ (by simp)
  exact Fields.conveys_cons hcreated Fields.conveys_none (by simp)

variable {records : List Record}

theorem fixture_ofText (h : ∀ r ∈ records, r.Dated) :
    Market.Fixture.ofText (codec.list.toText records) = .ok ⟨records⟩ := by
  have hback : codec.list.ReadsBack depthLimit records :=
    readsBack_list fun r hr => readsBack (h r hr)
  rw [Market.Fixture.ofText, hback.readText]

theorem exists_rows (h : ∀ r ∈ records, r.Dated) :
    ∃ rows, any.Reads depthLimit (codec.list.write records) (.array rows) ∧
      codec.list.readJson (.array rows) = .ok records := by
  have hall : ∀ r ∈ records, ∃ v, codec.Conveys (125 + 1) r v := fun r hr => exists_conveys (h r hr)
  obtain ⟨rows, -, hreads, hjson⟩ := conveys_list hall
  refine ⟨rows, hreads, ?_⟩
  rw [readJson, hjson]
  rfl

/-- A record is read from its own text. The text under `results` in an answer is a fixture of the
records of the answer, and the value that a reader of the answer finds there is read as the list of
them. -/
theorem reread :
    (∀ r : Record, r.Dated → codec.readText (codec.toText r) = .ok r) ∧
    ∀ answer : Service.Response, (∀ r ∈ answer.records, r.Dated) →
      (Http.Body.answer answer).text.toList = brace
        [writeEntry "parsed_json" (Query.codec.write answer.query),
          writeEntry "sql_query" (writeString answer.sql),
          writeEntry "results" (codec.list.toText answer.records).toList,
          writeEntry "execution_time" (writeFloat answer.elapsed)] ∧
      Market.Fixture.ofText (codec.list.toText answer.records) = .ok ⟨answer.records⟩ ∧
      ∃ rows, ofText (codec.list.toText answer.records) = .ok (.array rows) ∧
        codec.list.readJson (.array rows) = .ok answer.records ∧
        (answer.query.WellFormed → (∀ c ∈ answer.query.clauses, c.value.depth ≤ 124) →
          readValue (depthLimit + 1) (Http.Body.answer answer).text.toList = .ok (.object [
            ("execution_time", .float answer.elapsed),
            ("parsed_json", answer.query.toJson),
            ("results", .array rows),
            ("sql_query", .string answer.sql)], [])) := by
  refine ⟨fun r hr => (readsBack hr).readText, fun answer h => ⟨?_, fixture_ofText h, ?_⟩⟩
  · rw [Http.Body.text, toText, toText, String.toList_ofList, String.toList_ofList]
    rfl
  · obtain ⟨rows, hreads, hjson⟩ := exists_rows h
    have hread : ofChars (codec.list.write answer.records) = .ok (.array rows) := hreads.ofChars
    refine ⟨rows, ?_, hjson, fun hq hd => Http.readValue_answer hq hd hreads⟩
    rw [ofText, toText, String.toList_ofList, hread]
    rfl

def leapSecond : Timestamp := ⟨2016, 12, 31, 23, 59, 59, 1500000000⟩

def lateRecord : Record :=
  { new "Q\"\n" "null" Double.zero with
    sector := some "", volume := some Int64.minValue, createdAt := some leapSecond }

theorem reread_lateRecord :
    lateRecord.Dated ∧ leapSecond.text = "2016-12-31T23:59:60.500" ∧
    codec.readText (codec.toText lateRecord) = .ok lateRecord ∧
    Market.Fixture.ofText (codec.list.toText [lateRecord, lateRecord]) =
      .ok ⟨[lateRecord, lateRecord]⟩ := by
  have hdated : lateRecord.Dated := by
    rintro t ht
    cases ht
    exact ⟨by decide, by decide, by decide, by decide, .inr (by decide)⟩
  have hall : ∀ r ∈ [lateRecord, lateRecord], r.Dated := by
    simpa using hdated
  exact ⟨hdated, by decide, reread.1 lateRecord hdated,
    (reread.2 ⟨.empty, "", [lateRecord, lateRecord], Double.zero⟩ hall).2.1⟩

end Record

end Screener
