import Screener.Proofs.Sql.Pieces

namespace Screener.Sql

def Value.toLiteral : Value → Literal
  | null => .null
  | boolean b => .bool b
  | bigint n => .int n
  | double x => .float x
  | text s => .text s

theorem Value.toLiteral_ofLiteral (l : Literal) : (ofLiteral l).toLiteral = l := by cases l <;> rfl

/-- A text with the literal of the next value in place of each question mark; none unless there are
as many values as marks. -/
def fill : List Char → List Value → Option (List Char)
  | [], vs => if vs.isEmpty then some [] else none
  | c :: cs, vs =>
    if c = '?' then
      match vs with
      | v :: vs => (fill cs vs).map ((literal v.toLiteral).toList ++ ·)
      | [] => none
    else (fill cs vs).map (c :: ·)

def selectColumns : String := "SELECT " ++ ", ".intercalate Record.columns

/-- A text with a star in place of the names of all columns. -/
def starred? (cs : List Char) : Option (List Char) :=
  (cs.dropPrefix? selectColumns.toList).map ("SELECT *".toList ++ ·)

theorem fill_mark (cs : List Char) (v : Value) (vs : List Value) :
    fill ('?' :: cs) (v :: vs) = (fill cs vs).map ((literal v.toLiteral).toList ++ ·) := by
  simp [fill]

theorem fill_mark_nil (cs : List Char) : fill ('?' :: cs) [] = none := by simp [fill]

theorem fill_cons {c : Char} (h : c ≠ '?') (cs : List Char) (vs : List Value) :
    fill (c :: cs) vs = (fill cs vs).map (c :: ·) := by
  cases vs <;> simp [fill, h]

theorem fill_append {cs : List Char} (h : '?' ∉ cs) (rest : List Char) (vs : List Value) :
    fill (cs ++ rest) vs = (fill rest vs).map (cs ++ ·) := by
  induction cs with
  | nil => simp
  | cons c cs ih =>
    have hc : c ≠ '?' := fun he => h (by simp [he])
    have hcs : '?' ∉ cs := fun hm => h (List.mem_cons_of_mem c hm)
    rw [List.cons_append, fill_cons hc, ih hcs, Option.map_map]
    rfl

theorem count_of_fill {cs : List Char} {vs : List Value} {out : List Char}
    (h : fill cs vs = some out) : cs.count '?' = vs.length := by
  induction cs generalizing vs out with
  | nil =>
    cases vs with
    | nil => rfl
    | cons v vs => cases h
  | cons c cs ih =>
    by_cases hc : c = '?'
    · subst hc
      cases vs with
      | nil => simp [fill_mark_nil] at h
      | cons v vs =>
        rw [fill_mark] at h
        obtain ⟨out, hout, -⟩ := Option.map_eq_some_iff.mp h
        rw [List.count_cons_self, ih hout, List.length_cons]
    · rw [fill_cons hc] at h
      obtain ⟨out, hout, -⟩ := Option.map_eq_some_iff.mp h
      rw [List.count_cons_of_ne hc, ih hout]

theorem fill_text {piece : Piece} (h : piece.Fixed Record.columns) (rest : List Char)
    (vs : List Value) :
    fill (piece.text (fun _ => "?") ++ rest) (piece.operands.map Value.ofLiteral ++ vs) =
      (fill rest vs).map (piece.text literal ++ ·) := by
  rw [Piece.text, List.append_assoc, fill_append (notMem_blank (by decide) piece), Piece.text]
  cases piece with
  | token _ t =>
    simp only [Piece.body, Piece.operands, List.map_nil, List.nil_append,
      fill_append (Token.notMem_spell h (Or.inl rfl)), Option.map_map, Function.comp_def,
      List.append_assoc]
  | operand _ l =>
    have hmark : fill ("?".toList ++ rest) ([Value.ofLiteral l] ++ vs) =
        (fill rest vs).map ((literal l).toList ++ ·) := by
      show fill ('?' :: rest) (Value.ofLiteral l :: vs) = _
      rw [fill_mark, Value.toLiteral_ofLiteral]
    simp only [Piece.body, Piece.operands, List.map_cons, List.map_nil, hmark, Option.map_map,
      Function.comp_def, List.append_assoc]

/-- Filling the question marks of a list of pieces spells the operands out. -/
theorem fill_spelled {pieces : List Piece} (h : ∀ piece ∈ pieces, piece.Fixed Record.columns) :
    fill (spelled (fun _ => "?") pieces) ((pieces.flatMap Piece.operands).map Value.ofLiteral) =
      some (spelled literal pieces) := by
  -- Each piece takes as many values as it has question marks, so the next one starts in step.
  induction pieces with
  | nil => rfl
  | cons piece pieces ih =>
    rw [spelled_cons, List.flatMap_cons, List.map_append, fill_text (h piece (by simp)),
      ih fun p hp => h p (List.mem_cons_of_mem piece hp), spelled_cons]
    rfl

theorem starred?_spelled (p : Plan) :
    starred? (spelled literal (planPieces recordPieces p)) =
      some (spelled literal (planPieces starPieces p)) := by
  have hsplit : ∀ columns : List Piece, spelled literal (planPieces columns p) =
      "SELECT".toList ++ spelled literal columns ++
        (" FROM stocks".toList ++ spelled literal
          (wherePieces p.conditions ++ orderPieces p.order ++
            [Piece.word "LIMIT", .token true (.number (digitsOf p.limit))])) := by
    intro columns
    simp only [planPieces, spelled_append, spelled_cons, List.append_assoc]
    rfl
  have hnamed : "SELECT".toList ++ spelled literal recordPieces = selectColumns.toList := by decide
  have hstar : "SELECT".toList ++ spelled literal starPieces = "SELECT *".toList := by decide
  have hsame : selectColumns.toList == selectColumns.toList := beq_self_eq_true _
  rw [hsplit, hsplit, hnamed, hstar, starred?, List.dropPrefix?_append_of_beq _ hsame]
  rfl

theorem fill_ofCondition (c : Condition) :
    fill (Filter.ofCondition c).text.toList (Filter.ofCondition c).params =
      some (condition c).toList := by
  have hf := fill_spelled (fixed_conditionPieces column_mem_columns c)
  rw [spelled_conditionPieces, spelled_conditionPieces, operands_conditionPieces,
    ← params_ofCondition, ← condition_eq,
    show conditionText (fun _ => "?") c = (Filter.ofCondition c).text from
      (congrFun text_comp_ofCondition c).symm,
    fill_cons (by decide)] at hf
  obtain ⟨out, hout, he⟩ := Option.map_eq_some_iff.mp hf
  rw [hout, (List.cons.inj he).2]

/-- What is run and what is shown are one statement: the values fill the question marks, a star
stands for the columns, and tests, sort and limit are the same one by one. -/
theorem native_filled_eq_sql (q : Query) :
    let p := Plan.ofQuery q
    let filters := (Select.ofPlan p).filters
    (fill (native p).sql.toList (native p).params).bind starred? = some q.sql.toList ∧
    (native p).sql.toList.count '?' = (native p).params.length ∧
    (native p).sql =
      selectColumns ++ " FROM " ++ stocksTable ++ whereText (filters.map Filter.text) ++ endText p ∧
    q.sql = "SELECT *" ++ " FROM " ++ stocksTable ++ whereText (p.conditions.map condition) ++
      endText p ∧
    filters.map (fun f => fill f.text.toList f.params) =
      p.conditions.map fun c => some (condition c).toList := by
  intro p filters
  have hlimit : p.limit < UInt32.size := limit_lt_size q
  have hfixed : ∀ piece ∈ planPieces recordPieces p, piece.Fixed Record.columns :=
    fixed_planPieces column_mem_columns fixed_recordPieces p
  have hcolumns : recordPieces.flatMap Piece.operands = [] := rfl
  have hfill : fill (native p).sql.toList (native p).params =
      some (spelled literal (planPieces recordPieces p)) := by
    rw [native_sql_toList hlimit, native_params, ← operands_planPieces hcolumns p,
      fill_spelled hfixed]
  refine ⟨?_, count_of_fill hfill, ?_, ?_, ?_⟩
  · rw [hfill, Option.bind_some, starred?_spelled, Query.sql, audit_toList]
  · rw [native_sql_eq hlimit, planText, ← text_comp_ofCondition, ← List.map_map]
    rfl
  · rw [Query.sql, audit_eq, planText, ← condition_eq]
    rfl
  · simp only [filters, Select.ofPlan, List.map_map, Function.comp_def, fill_ofCondition]

end Screener.Sql
