import Screener.Proofs.Sql.Lexing
import Screener.Sql.Statement

namespace Screener.Sql

def Target.ofField (f : Field) : Target :=
  match f.kind with
  | .text => .column f.column
  | _ => .castText f.column

theorem Target.name_ofField (f : Field) : (ofField f).name = f.column := by cases f <;> rfl

/-- The test of a condition, if its operands stand for what `datum` says. -/
def Test.ofCondition (datum : Literal → Datum) (c : Condition) : Test :=
  match c.predicate with
  | .compare o v => .compare (.column c.column) o (datum v)
  | .between low high => .between (.column c.column) (datum low) (datum high)
  | .contains pattern => .ilike (.ofField c.field) (datum (.text pattern)) likeEscape
  | .member [] => .never
  | .member (v :: vs) => .member (.column c.column) ((v :: vs).map datum)

def Statement.ofPlan (datum : Literal → Datum) (columns : Option (List String)) (p : Plan) :
    Statement where
  columns := columns
  table := stocksTable
  tests := p.conditions.map (Test.ofCondition datum)
  order := p.order.map fun (f, d) => (f.column, d)
  limit := some p.limit

namespace Statement

theorem length_le_flatMap {α β : Type} {f : α → List β} {l : List α} (h : ∀ a ∈ l, f a ≠ []) :
    l.length ≤ (l.flatMap f).length := by
  induction l with
  | nil => simp
  | cons a l ih =>
    have ha := List.length_pos_iff.mpr (h a (by simp))
    have hl := ih fun b hb => h b (List.mem_cons_of_mem a hb)
    rw [List.flatMap_cons, List.length_append, List.length_cons]
    omega

theorem column_ne_false (f : Field) : f.column ≠ "FALSE" := by cases f <;> decide

theorem readTarget_column (f : Field) (ts : List Token) :
    readTarget (.word f.column :: ts) = some (.column f.column, ts) := by
  cases f <;> rfl

def searchTokens (f : Field) : List Token :=
  match f.kind with
  | .text => [.word f.column]
  | _ => [.word "CAST", .sign '(', .word f.column, .word "AS", .word "VARCHAR", .sign ')']

theorem readTarget_search (f : Field) (ts : List Token) :
    readTarget (searchTokens f ++ ts) = some (.ofField f, ts) := by
  cases f <;> rfl

theorem search_ne_false (f : Field) (ts more : List Token) :
    searchTokens f ++ ts ≠ .word "FALSE" :: more := by
  intro h
  have hh := congrArg List.head? h
  revert hh
  cases f <;> simp [searchTokens, Field.kind, Field.column, Field.name]

section

variable {lex : Literal → List Token} {bound : Literal → List Value} {datum : Literal → Datum}
variable (hread : ∀ l ts vs, readOperand (lex l ++ ts, bound l ++ vs) = some (datum l, (ts, vs)))
include hread

theorem readOperands_listed (v : Literal) (vs : List Literal) (ts : List Token)
    (params : List Value) {n : ℕ} (hn : vs.length < n) :
    readOperands n (lex v ++ (vs.flatMap fun l => .sign ',' :: lex l) ++ .sign ')' :: ts,
        bound v ++ vs.flatMap bound ++ params) =
      some (datum v :: vs.map datum, (ts, params)) := by
  induction vs generalizing v n with
  | nil =>
    obtain ⟨n, rfl⟩ : ∃ k, n = k + 1 := ⟨n - 1, by omega⟩
    simp [readOperands, hread]
  | cons w vs ih =>
    obtain ⟨n, rfl⟩ : ∃ k, n = k + 1 := ⟨n - 1, by omega⟩
    -- The comma is read here, so the rest starts with an operand as the whole does.
    have hrest := ih w (n := n) (by simpa using hn)
    simp only [List.append_assoc] at hrest
    simp [readOperands, hread, hrest]

theorem readTest_conditionPieces (c : Condition) (ts : List Token) (params : List Value) :
    readTest ((conditionPieces c).flatMap (Piece.tokens lex) ++ ts,
        (operandsOf c).flatMap bound ++ params) =
      some (Test.ofCondition datum c, (ts, params)) := by
  obtain ⟨f, o | _ | pattern | vs⟩ := c
  case compare v =>
    simp [conditionPieces, operandsOf, Piece.word, Piece.tokens, readTest, column_ne_false,
      readTarget_column, Condition.column, hread, Test.ofCondition]
  case between low high =>
    simp [conditionPieces, operandsOf, Piece.word, Piece.tokens, readTest, column_ne_false,
      readTarget_column, Condition.column, hread, Test.ofCondition]
  case contains =>
    have htokens : (searchPieces f).flatMap (Piece.tokens lex) = searchTokens f := by
      cases f <;> rfl
    simp [conditionPieces, operandsOf, Piece.word, Piece.tokens, readTest, htokens,
      readTarget_search, search_ne_false, hread, Test.ofCondition, likeEscape]
  case member =>
    cases vs with
    | nil =>
      simp [conditionPieces, operandsOf, Piece.word, Piece.tokens, readTest, Test.ofCondition]
    | cons v vs =>
      set rest := lex v ++ (vs.flatMap fun l => .sign ',' :: lex l) ++ .sign ')' :: ts with hrest
      -- The fuel is the number of tokens left, and every operand takes one of them at least.
      have hfuel : vs.length < rest.length := by
        have := length_le_flatMap (l := vs) fun l _ => List.cons_ne_nil (Token.sign ',') (lex l)
        simp only [hrest, List.length_append, List.length_cons]
        omega
      have hlist := readOperands_listed hread v vs ts params hfuel
      have htokens : (conditionPieces ⟨f, .member (v :: vs)⟩).flatMap (Piece.tokens lex) ++ ts =
          .word f.column :: .word "IN" :: .sign '(' :: rest := by
        simp [hrest, conditionPieces, Piece.listed, Piece.word, Piece.sign, Piece.tokens,
          Condition.column, List.flatMap_assoc, List.flatMap_map]
      rw [htokens, operandsOf, List.flatMap_cons]
      rw [← hrest] at hlist
      generalize bound v ++ vs.flatMap bound ++ params = values at hlist ⊢
      clear_value rest
      simp [readTest, column_ne_false, readTarget_column, hlist, Test.ofCondition,
        Condition.column]

omit hread in
theorem tokens_conditionPieces_ne_nil (c : Condition) :
    (conditionPieces c).flatMap (Piece.tokens lex) ≠ [] := by
  obtain ⟨f, _ | _ | _ | vs⟩ := c
  case contains => cases f <;> simp [conditionPieces, searchPieces, Field.kind, Piece.word,
    Piece.tokens]
  case member => cases vs <;> simp [conditionPieces, Piece.word, Piece.tokens]
  all_goals simp [conditionPieces, Piece.word, Piece.tokens]

theorem readTests_flatMap (c : Condition) (cs : List Condition) {ts : List Token}
    (hts : ∀ more, ts ≠ .word "AND" :: more) (params : List Value) {n : ℕ} (hn : cs.length < n) :
    readTests n ((conditionPieces c).flatMap (Piece.tokens lex) ++
        (cs.flatMap fun c => .word "AND" :: (conditionPieces c).flatMap (Piece.tokens lex)) ++ ts,
        (operandsOf c).flatMap bound ++
          (cs.flatMap fun c => (operandsOf c).flatMap bound) ++ params) =
      some (Test.ofCondition datum c :: cs.map (Test.ofCondition datum), (ts, params)) := by
  induction cs generalizing c n with
  | nil =>
    obtain ⟨n, rfl⟩ : ∃ k, n = k + 1 := ⟨n - 1, by omega⟩
    simp [readTests, readTest_conditionPieces hread, hts]
  | cons d cs ih =>
    obtain ⟨n, rfl⟩ : ∃ k, n = k + 1 := ⟨n - 1, by omega⟩
    have hrest := ih d (n := n) (by simpa using hn)
    simp only [List.append_assoc] at hrest
    simp [readTests, readTest_conditionPieces hread, hrest]

theorem readWhere_wherePieces (cs : List Condition) {ts : List Token}
    (hts : ∀ more, ts ≠ .word "AND" :: more) (hw : ∀ more, ts ≠ .word "WHERE" :: more)
    (params : List Value) :
    readWhere ((wherePieces cs).flatMap (Piece.tokens lex) ++ ts,
        (cs.flatMap operandsOf).flatMap bound ++ params) =
      some (cs.map (Test.ofCondition datum), (ts, params)) := by
  cases cs with
  | nil => simp [wherePieces, readWhere, hw]
  | cons c cs =>
    set rest := (conditionPieces c).flatMap (Piece.tokens lex) ++
      (cs.flatMap fun c => .word "AND" :: (conditionPieces c).flatMap (Piece.tokens lex)) ++ ts
      with hrest
    have hfuel : cs.length < rest.length := by
      have hc : (conditionPieces c).flatMap (Piece.tokens lex) ≠ [] :=
        tokens_conditionPieces_ne_nil c
      have := length_le_flatMap (l := cs) fun c _ =>
        List.cons_ne_nil (Token.word "AND") ((conditionPieces c).flatMap (Piece.tokens lex))
      simp only [hrest, List.length_append]
      have := List.length_pos_iff.mpr hc
      omega
    have htests := readTests_flatMap hread c cs hts params hfuel
    have htokens : (wherePieces (c :: cs)).flatMap (Piece.tokens lex) ++ ts =
        .word "WHERE" :: rest := by
      simp [hrest, wherePieces, Piece.word, Piece.tokens, List.flatMap_assoc]
    have hbound : ((c :: cs).flatMap operandsOf).flatMap bound ++ params =
        (operandsOf c).flatMap bound ++
          (cs.flatMap fun c => (operandsOf c).flatMap bound) ++ params := by
      simp [List.flatMap_assoc]
    rw [htokens, hbound, readWhere, htests]
    rfl

/-- A plan is read back from its tokens. -/
theorem ofTokens?_planPieces {columns : List Piece} {names : Option (List String)}
    (hcols : ∀ ts, readColumns (columns.flatMap (Piece.tokens lex) ++ .word "FROM" :: ts) =
      some (names, .word "FROM" :: ts)) (p : Plan) :
    ofTokens? ((planPieces columns p).flatMap (Piece.tokens lex))
        ((p.conditions.flatMap operandsOf).flatMap bound) =
      some (.ofPlan datum names p) := by
  obtain ⟨conditions, order, limit⟩ := p
  set tail := (orderPieces order).flatMap (Piece.tokens lex) ++
    [.word "LIMIT", .number (digitsOf limit)] with htail
  -- Nothing after the conditions can be taken for one more of them.
  have hand : ∀ more, tail ≠ .word "AND" :: more := by
    rcases order with _ | ⟨f, d⟩ <;> simp [htail, orderPieces, Piece.word, Piece.tokens]
  have hwhere : ∀ more, tail ≠ .word "WHERE" :: more := by
    rcases order with _ | ⟨f, d⟩ <;> simp [htail, orderPieces, Piece.word, Piece.tokens]
  have htests := readWhere_wherePieces hread conditions hand hwhere []
  have horder : readOrder tail =
      (order.map fun (f, d) => (f.column, d), [.word "LIMIT", .number (digitsOf limit)]) := by
    rcases order with _ | ⟨f, _ | _⟩ <;>
      simp [htail, readOrder, orderPieces, Piece.word, Piece.tokens, Direction.sql]
  have htokens : (planPieces columns ⟨conditions, order, limit⟩).flatMap (Piece.tokens lex) =
      .word "SELECT" :: (columns.flatMap (Piece.tokens lex) ++ .word "FROM" :: .word stocksTable ::
        ((wherePieces conditions).flatMap (Piece.tokens lex) ++ tail)) := by
    simp [htail, planPieces, Piece.word, Piece.tokens]
  rw [List.append_nil] at htests
  rw [htokens]
  simp [ofTokens?, hcols, htests, horder, readLimit, natOfDigits_digitsOf, Statement.ofPlan]

end

theorem readNames_flatMap (name : String) (names : List String) {ts : List Token}
    (hts : ∀ more, ts ≠ .sign ',' :: more) {n : ℕ} (hn : names.length < n) :
    readNames n (.word name :: (names.flatMap fun m => [.sign ',', .word m]) ++ ts) =
      some (name :: names, ts) := by
  induction names generalizing name n with
  | nil =>
    obtain ⟨n, rfl⟩ : ∃ k, n = k + 1 := ⟨n - 1, by omega⟩
    simp [readNames]
  | cons other names ih =>
    obtain ⟨n, rfl⟩ : ∃ k, n = k + 1 := ⟨n - 1, by omega⟩
    have hrest := ih other (n := n) (by simpa using hn)
    simp only [List.cons_append] at hrest
    simp [readNames, hrest]

theorem readColumns_record (lex : Literal → List Token) (ts : List Token) :
    readColumns (recordPieces.flatMap (Piece.tokens lex) ++ .word "FROM" :: ts) =
      some (some Record.columns, .word "FROM" :: ts) := by
  set names : List Token :=
    .word "symbol" :: Record.columns.tail.flatMap fun m => [.sign ',', .word m] with hnames
  have htokens : recordPieces.flatMap (Piece.tokens lex) = names := rfl
  have hfuel : Record.columns.tail.length < (names ++ .word "FROM" :: ts).length := by
    rw [List.length_append]
    exact Nat.lt_add_right _ (by decide)
  have hcomma : ∀ more, .word "FROM" :: ts ≠ Token.sign ',' :: more := by simp
  have hread := readNames_flatMap "symbol" Record.columns.tail hcomma hfuel
  rw [← hnames] at hread
  rw [htokens]
  exact congrArg (Option.map (Prod.map some id)) hread

end Statement

def Datum.ofLiteral (l : Literal) : Datum := .ofValue (.ofLiteral l)

/-- A number as its text is read: with a point the double, else the whole number spelled. -/
def Datum.ofDouble (x : Double) : Datum :=
  if '.' ∈ x.digits then .double x else .integer x.spelledInt

/-- What an operand stands for once it is written into the text. -/
def Datum.ofText : Literal → Datum
  | .float x => .ofDouble x
  | l => .ofLiteral l

/-- The tokens of a number: a sign of its own, then the digits. -/
def signedTokens (negative : Bool) (ds : List Char) : List Token :=
  (if negative then [.sign '-'] else []) ++ [.number ds]

def literalTokens : Literal → List Token
  | .null => [.word "NULL"]
  | .bool true => [.word "TRUE"]
  | .bool false => [.word "FALSE"]
  | .int n => signedTokens (n.toInt < 0) (digitsOf n.toInt.natAbs)
  | .float x => signedTokens x.negative x.digits
  | .text s => [.string s]

theorem toList_literal_int (n : Int64) :
    (literal (.int n)).toList = signed (n.toInt < 0) (digitsOf n.toInt.natAbs) := by
  rw [← writeInt_eq]
  exact String.toList_ofList

theorem toList_literal_float (x : Double) :
    (literal (.float x)).toList = signed x.negative x.digits :=
  String.toList_ofList

theorem readOperand_signedTokens (negative : Bool) (ds : List Char) (ts : List Token)
    (vs : List Value) :
    Statement.readOperand (signedTokens negative ds ++ ts, vs) =
      (Statement.numeral? negative ds).map fun d => (d, (ts, vs)) := by
  cases negative <;> rfl

theorem numeral?_int (n : ℤ) :
    Statement.numeral? (n < 0) (digitsOf n.natAbs) = some (.integer n) := by
  have hpoint : (digitsOf n.natAbs).contains '.' = false := by
    have := not_mem_of_digits (fun _ hc => isDigit_of_mem_digitsOf (n := n.natAbs) hc)
      (c := '.') (by decide)
    simpa using this
  rw [Statement.numeral?, hpoint, natOfDigits_digitsOf]
  by_cases hn : n < 0
  · have habs : -(n.natAbs : ℤ) = n := by omega
    simp only [hn, decide_true, if_true, habs]
    rfl
  · have habs : (n.natAbs : ℤ) = n := by omega
    simp only [hn, decide_false, habs]
    rfl

theorem numeral?_double (x : Double) :
    Statement.numeral? x.negative x.digits = some (.ofDouble x) := by
  have hback : (Numeral.read? (signed x.negative x.digits) : Option Double) = some x :=
    x.read?_render_plain
  rw [signed] at hback
  by_cases hpoint : '.' ∈ x.digits
  · have hc : x.digits.contains '.' = true := by simpa using hpoint
    rw [Statement.numeral?, hc, if_pos rfl, hback, Datum.ofDouble, if_pos hpoint]
    rfl
  · have hc : x.digits.contains '.' = false := by simpa using hpoint
    rw [Statement.numeral?, hc, Datum.ofDouble, if_neg hpoint]
    rfl

theorem readOperand_literalTokens (l : Literal) (ts : List Token) (vs : List Value) :
    Statement.readOperand (literalTokens l ++ ts, vs) = some (.ofText l, (ts, vs)) := by
  cases l with
  | null => rfl
  | bool b => cases b <;> rfl
  | int n =>
    rw [literalTokens, readOperand_signedTokens, numeral?_int]
    rfl
  | float x =>
    rw [literalTokens, readOperand_signedTokens, numeral?_double]
    rfl
  | text s => rfl

theorem lexed_literal (l : Literal) {rest : List Char} {ts : List Token} (hr : Token.Ends rest)
    (h : Token.Lexed rest ts) :
    Token.Lexed ((literal l).toList ++ rest) (literalTokens l ++ ts) := by
  have hsigned : ∀ (negative : Bool) {ds : List Char}, IsPlain ds →
      Token.Lexed (signed negative ds ++ rest) (signedTokens negative ds ++ ts) := by
    intro negative ds hd
    have hnumber : Token.Lexed (ds ++ rest) (.number ds :: ts) :=
      h.append (t := .number ds) hd (Or.inr hr)
    cases negative with
    | false => exact hnumber
    | true => exact hnumber.append (t := .sign '-') (by simp [Token.Readable]) (Or.inl ⟨_, rfl⟩)
  have hword : ∀ s : String, Token.IsWord s.toList →
      Token.Lexed (s.toList ++ rest) (.word s :: ts) := fun s hs =>
    h.append (t := .word s) hs (Or.inr hr)
  cases l with
  | null => exact hword "NULL" (by decide)
  | bool b =>
    cases b with
    | true => exact hword "TRUE" (by decide)
    | false => exact hword "FALSE" (by decide)
  | int n =>
    rw [toList_literal_int]
    exact hsigned _ (isPlain_digitsOf _)
  | float x =>
    rw [toList_literal_float]
    exact hsigned _ x.isPlain_digits
  | text s => exact h.append (t := .string s) trivial (Or.inr hr)

/-- The statement that is run. -/
theorem ofBound?_native {p : Plan} (h : p.limit < UInt32.size) :
    Statement.ofBound? (native p) = some (.ofPlan .ofLiteral (some Record.columns) p) := by
  set lex : Literal → List Token := fun _ => [.sign '?'] with hlex
  have hmark : ∀ l rest ts, Token.Ends rest → Token.Lexed rest ts →
      Token.Lexed ("?".toList ++ rest) (lex l ++ ts) := fun l rest ts _ hl =>
    hl.append (t := .sign '?') (by simp [Token.Readable]) (Or.inl ⟨_, rfl⟩)
  -- A question mark is a token of its own and takes the next value, whatever that is.
  have hlexed := lexed_planPieces hmark fixed_recordPieces separate_recordPieces p
  rw [← native_sql_toList h] at hlexed
  have hread : ∀ l ts vs, Statement.readOperand (lex l ++ ts, [Value.ofLiteral l] ++ vs) =
      some (Datum.ofLiteral l, (ts, vs)) := fun _ _ _ => rfl
  have hplan := Statement.ofTokens?_planPieces hread (Statement.readColumns_record lex) p
  rw [← List.map_eq_flatMap, ← native_params] at hplan
  rw [Statement.ofBound?, hlexed.ofText?_eq]
  exact hplan

theorem lexed_audit (p : Plan) : Token.Lexed (audit p).toList
    ((planPieces starPieces p).flatMap (Piece.tokens literalTokens)) := by
  have hfixed : ∀ piece ∈ starPieces, piece.Fixed Record.columns := by
    simp [starPieces, Piece.Fixed, Token.Fixed]
  rw [audit_toList]
  exact lexed_planPieces (fun l _ _ => lexed_literal l) hfixed
    (separate_of_forall (by simp [starPieces])) p

theorem ofBound?_audit (p : Plan) :
    Statement.ofBound? ⟨audit p, []⟩ = some (.ofPlan .ofText none p) := by
  have hread : ∀ l ts vs, Statement.readOperand (literalTokens l ++ ts, [] ++ vs) =
      some (Datum.ofText l, (ts, vs)) := readOperand_literalTokens
  have hstar : ∀ ts, Statement.readColumns
      (starPieces.flatMap (Piece.tokens literalTokens) ++ .word "FROM" :: ts) =
        some (none, .word "FROM" :: ts) := fun _ => rfl
  have hplan := Statement.ofTokens?_planPieces hread hstar p
  rw [List.flatMap_eq_nil_iff.mpr fun _ _ => rfl] at hplan
  rw [Statement.ofBound?, (lexed_audit p).ofText?_eq]
  exact hplan

end Screener.Sql
