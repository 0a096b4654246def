import Screener.Http.Message
import Screener.Proofs.Query.CanonicalText
import Screener.Proofs.Record

namespace Screener.Http

open Json Json.Codec

/-- The text of an object with a query, its statement, what was found and how long it took. The
object lies around the query, so it goes one level deeper than a text that a query is read from. -/
def HoldsAnswer (body : String) (r : Service.Response) : Prop :=
  ∃ rows, rows.length = r.records.length ∧
    readValue (depthLimit + 1) body.toList = .ok (.object [
      ("execution_time", .float r.elapsed),
      ("parsed_json", r.query.toJson),
      ("results", .array rows),
      ("sql_query", .string r.sql)], [])

/-- The text of an object that holds one text. -/
def HoldsDetail (body : String) (detail : String) : Prop :=
  ofText body = .ok (.object [("detail", .string detail)])

theorem readValue_answer {r : Service.Response} {rows : List Json} (hq : r.query.WellFormed)
    (hd : ∀ c ∈ r.query.clauses, c.value.depth ≤ 124)
    (hrows : any.Reads depthLimit (Record.codec.list.write r.records) (.array rows)) :
    readValue (depthLimit + 1) (Body.answer r).text.toList = .ok (.object [
      ("execution_time", .float r.elapsed),
      ("parsed_json", r.query.toJson),
      ("results", .array rows),
      ("sql_query", .string r.sql)], []) := by
  have hentries : List.Forall₂ (fun e w => e.1 = w.1 ∧ any.Reads depthLimit e.2 w.2)
      [("parsed_json", Query.codec.write r.query), ("sql_query", writeString r.sql),
        ("results", Record.codec.list.write r.records), ("execution_time", writeFloat r.elapsed)]
      [("parsed_json", r.query.toJson), ("sql_query", .string r.sql), ("results", .array rows),
        ("execution_time", .float r.elapsed)] :=
    .cons ⟨rfl, Query.reads_toJson hq hd⟩ <| .cons ⟨rfl, reads_string r.sql _⟩ <|
      .cons ⟨rfl, hrows⟩ <| .cons ⟨rfl, reads_float r.elapsed _⟩ .nil
  have hobject : any.Reads (depthLimit + 1) (Service.Response.codec.write r) _ :=
    reads_object hentries
  have hread := hobject.read .nil
  rw [List.append_nil] at hread
  rw [Body.text, toText, String.toList_ofList]
  exact hread

theorem holdsAnswer_text {r : Service.Response} (hq : r.query.WellFormed)
    (hd : ∀ c ∈ r.query.clauses, c.value.depth ≤ 124) : HoldsAnswer (Body.answer r).text r := by
  obtain ⟨rows, hlength, hrows⟩ := writes_list fun r' (_ : r' ∈ r.records) => r'.writes 125
  exact ⟨rows, hlength, readValue_answer hq hd hrows⟩

theorem holdsDetail_text (e : Service.Error) : HoldsDetail (Body.failure e).text (detail e) := by
  have hwell : (Json.object [("detail", .string (detail e))]).WellFormed :=
    .object (List.pairwise_singleton _ _) (List.forall_mem_singleton.mpr (.string _))
  have hdepth : (Json.object [("detail", .string (detail e))]).depth ≤ depthLimit := by
    simp [Json.depth, depthOfEntries, depthLimit]
  have hread : ofChars (Json.object [("detail", .string (detail e))]).write = _ :=
    (readsBack_any hwell hdepth).ofChars
  rw [HoldsDetail, Body.text, Json.text, ofText, String.toList_ofList]
  show Except.mapError _ (ofChars (Json.object [("detail", .string (detail e))]).write) = _
  rw [hread]
  rfl

end Screener.Http
