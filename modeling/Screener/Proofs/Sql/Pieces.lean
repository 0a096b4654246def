import Screener.Proofs.Number.Numeral
import Screener.Sql.Native
import Screener.Sql.Token

namespace Screener.Sql

theorem intercalate_cons {α : Type} (sep a : List α) (as : List (List α)) :
    sep.intercalate (a :: as) = a ++ as.flatMap (sep ++ ·) := by
  induction as generalizing a with
  | nil => simp
  | cons b as ih =>
    rw [List.intercalate_cons_cons, ih, List.flatMap_cons]
    simp only [List.append_assoc]

def conditionText (spell : Literal → String) (c : Condition) : String :=
  match c.predicate with
  | .compare o v => c.column ++ " " ++ o.sql ++ " " ++ spell v
  | .between low high => c.column ++ " BETWEEN " ++ spell low ++ " AND " ++ spell high
  | .contains pattern => c.target ++ " ILIKE " ++ spell (.text pattern) ++ escapeClause
  | .member [] => "FALSE"
  | .member values => c.column ++ " IN (" ++ ", ".intercalate (values.map spell) ++ ")"

def whereText (tests : List String) : String :=
  if tests.isEmpty then "" else " WHERE " ++ " AND ".intercalate tests

def endText (p : Plan) : String :=
  (match p.order with
    | some (f, d) => " ORDER BY " ++ f.column ++ " " ++ d.sql
    | none => "") ++
  " LIMIT " ++ toString p.limit

/-- A plan with its operands spelled by `spell`. -/
def planText (columns : String) (spell : Literal → String) (p : Plan) : String :=
  "SELECT " ++ columns ++ " FROM " ++ stocksTable ++
    whereText (p.conditions.map (conditionText spell)) ++ endText p

theorem condition_eq : condition = conditionText literal := by
  funext c
  obtain ⟨f, _ | _ | _ | vs⟩ := c
  case member => cases vs <;> rfl
  all_goals rfl

theorem text_comp_ofCondition :
    Filter.text ∘ Filter.ofCondition = conditionText fun _ => "?" := by
  funext c
  apply String.toList_inj.mp
  obtain ⟨f, _ | _ | _ | vs⟩ := c
  case member =>
    cases vs with
    | nil => rfl
    | cons v vs =>
      -- The marks are put down for the values, which are as many as the operands.
      have hm : (((v :: vs).map Value.ofLiteral).map fun _ => "?") = (v :: vs).map fun _ => "?" :=
        List.map_map
      exact congrArg (fun l => (f.column ++ " IN (" ++ ", ".intercalate l ++ ")").toList) hm
  all_goals simp [Filter.ofCondition, Filter.text, conditionText, escapeClause]

theorem audit_eq (p : Plan) : audit p = planText "*" literal p := by
  obtain ⟨conditions, order, limit⟩ := p
  apply String.toList_inj.mp
  rw [audit, condition_eq]
  cases conditions <;> cases order <;>
    simp [planText, whereText, endText, whereClause, intercalate_cons, stocksTable]

theorem native_sql_eq {p : Plan} (h : p.limit < UInt32.size) :
    (native p).sql = planText (", ".intercalate Record.columns) (fun _ => "?") p := by
  obtain ⟨conditions, order, limit⟩ := p
  have hl : (UInt32.ofNat limit).toNat = limit := UInt32.toNat_ofNat_of_lt' h
  apply String.toList_inj.mp
  simp only [native, Select.build, Select.ofPlan, Select.sql, planText, whereText, endText,
    List.map_map, text_comp_ofCondition, hl, List.isEmpty_map]
  cases order <;> simp [Record.columns]

theorem limit_lt_size (q : Query) : (Plan.ofQuery q).limit < UInt32.size := by
  have h : q.effectiveLimit ≤ 1000 := by
    unfold Query.effectiveLimit maxLimit
    omega
  exact h.trans_lt (by decide)

def Token.spell : Token → List Char
  | .word s => s.toList
  | .number ds => ds
  | .string s => (quote s).toList
  | .compare c => c.sql.toList
  | .sign c => [c]

/-- A piece of a statement, `spaced` if a blank stands before it. -/
inductive Piece where
  | token (spaced : Bool) (t : Token)
  | operand (spaced : Bool) (l : Literal)

namespace Piece

def spaced : Piece → Bool
  | token s _ | operand s _ => s

def word (s : String) : Piece := token true (.word s)

def sign (c : Char) : Piece := token false (.sign c)

def body (spell : Literal → String) : Piece → List Char
  | token _ t => t.spell
  | operand _ l => (spell l).toList

def text (spell : Literal → String) (piece : Piece) : List Char :=
  (if piece.spaced then [' '] else []) ++ piece.body spell

def operands : Piece → List Literal
  | token _ _ => []
  | operand _ l => [l]

def listed (first : Piece) (others : List Piece) : List Piece :=
  first :: others.flatMap fun piece => [sign ',', piece]

end Piece

open Piece

/-- What a search looks into: a column of text, or a column of numbers cast to text. -/
def searchPieces (f : Field) : List Piece :=
  match f.kind with
  | .text => [word f.column]
  | _ => [word "CAST", sign '(', token false (.word f.column), word "AS", word "VARCHAR", sign ')']

def conditionPieces (c : Condition) : List Piece :=
  match c.predicate with
  | .compare o v => [word c.column, token true (.compare o), operand true v]
  | .between low high =>
    [word c.column, word "BETWEEN", operand true low, word "AND", operand true high]
  | .contains pattern =>
    searchPieces c.field ++
      [word "ILIKE", operand true (.text pattern), word "ESCAPE", token true (.string "\\")]
  | .member [] => [word "FALSE"]
  | .member (v :: vs) =>
    [word c.column, word "IN", token true (.sign '(')] ++
      listed (operand false v) (vs.map (operand true)) ++ [sign ')']

def wherePieces : List Condition → List Piece
  | [] => []
  | c :: cs =>
    word "WHERE" :: conditionPieces c ++ cs.flatMap fun c => word "AND" :: conditionPieces c

def orderPieces : Option (Field × Direction) → List Piece
  | some (f, d) => [word "ORDER", word "BY", word f.column, word d.sql]
  | none => []

def starPieces : List Piece := [token true (.sign '*')]

def recordPieces : List Piece := listed (word "symbol") (Record.columns.tail.map word)

def planPieces (columns : List Piece) (p : Plan) : List Piece :=
  token false (.word "SELECT") :: columns ++ [word "FROM", word stocksTable] ++
    wherePieces p.conditions ++ orderPieces p.order ++
    [word "LIMIT", token true (.number (digitsOf p.limit))]

section

variable (spell : Literal → String)

def spelled (pieces : List Piece) : List Char := pieces.flatMap (Piece.text spell)

theorem spelled_append (a b : List Piece) :
    spelled spell (a ++ b) = spelled spell a ++ spelled spell b :=
  List.flatMap_append

theorem spelled_cons (a : Piece) (b : List Piece) :
    spelled spell (a :: b) = a.text spell ++ spelled spell b :=
  List.flatMap_cons

theorem notMem_blank {c : Char} (h : c ≠ ' ') (piece : Piece) :
    c ∉ if piece.spaced then [' '] else [] := by
  cases piece.spaced <;> simp [h]

theorem spelled_searchPieces (f : Field) :
    spelled spell (searchPieces f) = ' ' :: f.searchTarget.toList := by
  cases f <;> rfl

theorem spelled_listed (a : Piece) (l : List Piece) :
    spelled spell (listed a l) = a.text spell ++ l.flatMap fun b => ',' :: b.text spell := by
  simp only [spelled, listed, List.flatMap_cons, List.flatMap_assoc, List.flatMap_nil,
    List.append_nil]
  rfl

theorem spelled_conditionPieces (c : Condition) :
    spelled spell (conditionPieces c) = ' ' :: (conditionText spell c).toList := by
  obtain ⟨f, _ | _ | pattern | vs⟩ := c
  case contains =>
    simp only [conditionPieces, spelled_append, spelled_searchPieces]
    simp [spelled, conditionText, Condition.target, word, Piece.text, Piece.body, Piece.spaced,
      Token.spell, escapeClause, likeEscape, quote, doubled]
  case member =>
    cases vs with
    | nil =>
      simp [spelled, conditionPieces, conditionText, word, Piece.text, Piece.body, Piece.spaced,
        Token.spell]
    | cons v vs =>
      simp only [conditionPieces, spelled_append, spelled_listed]
      simp [spelled, conditionText, word, sign, Piece.text, Piece.body, Piece.spaced, Token.spell,
        intercalate_cons, List.flatMap_map]
  all_goals simp [spelled, conditionPieces, conditionText, word, Piece.text, Piece.body,
    Piece.spaced, Token.spell]

theorem spelled_planPieces {columns : List Piece} {names : String}
    (hc : spelled spell columns = ' ' :: names.toList) (p : Plan) :
    spelled spell (planPieces columns p) = (planText names spell p).toList := by
  obtain ⟨conditions, order, limit⟩ := p
  have hw : spelled spell (wherePieces conditions) =
      (whereText (conditions.map (conditionText spell))).toList := by
    cases conditions with
    | nil => rfl
    | cons c cs =>
      -- The text has " AND " between the tests; the pieces have the word before all but the first.
      have hand : spelled spell (cs.flatMap fun c => word "AND" :: conditionPieces c) =
          cs.flatMap fun c => " AND ".toList ++ (conditionText spell c).toList := by
        rw [spelled, List.flatMap_assoc]
        refine congrArg (fun g => cs.flatMap g) (funext fun c => ?_)
        exact congrArg (" AND".toList ++ ·) (spelled_conditionPieces spell c)
      simp only [wherePieces, spelled_append, spelled_cons, hand, spelled_conditionPieces,
        List.cons_append]
      simp [whereText, word, Piece.text, Piece.body, Piece.spaced, Token.spell, intercalate_cons,
        List.flatMap_map]
  simp only [planPieces, spelled_append, spelled_cons, hw, hc, List.cons_append]
  cases order <;>
    simp [spelled, planText, endText, orderPieces, word, Piece.text, Piece.body, Piece.spaced,
      Token.spell, digitsOf]

end

theorem audit_toList (p : Plan) :
    (audit p).toList = spelled literal (planPieces starPieces p) := by
  have hc : spelled literal starPieces = ' ' :: "*".toList := rfl
  rw [audit_eq, spelled_planPieces literal hc]

theorem native_sql_toList {p : Plan} (h : p.limit < UInt32.size) :
    (native p).sql.toList = spelled (fun _ => "?") (planPieces recordPieces p) := by
  have hc : spelled (fun _ => "?") recordPieces =
      ' ' :: (", ".intercalate Record.columns).toList := by
    simp [recordPieces, spelled_listed, Record.columns, word, Piece.text, Piece.body, Piece.spaced,
      Token.spell]
  rw [native_sql_eq h, spelled_planPieces _ hc]

/-- What a condition compares with, in the order it is written down. -/
def operandsOf (c : Condition) : List Literal :=
  match c.predicate with
  | .compare _ v => [v]
  | .between low high => [low, high]
  | .contains pattern => [.text pattern]
  | .member values => values

theorem operands_conditionPieces (c : Condition) :
    (conditionPieces c).flatMap Piece.operands = operandsOf c := by
  obtain ⟨f, _ | _ | pattern | vs⟩ := c
  case contains => cases f <;> rfl
  case member =>
    cases vs with
    | nil => rfl
    | cons v vs =>
      simp only [conditionPieces, listed, List.flatMap_cons, List.flatMap_append,
        List.flatMap_assoc, List.flatMap_map, List.flatMap_nil, Piece.operands, word, sign]
      simp [operandsOf]
  all_goals rfl

/-- Outside of the conditions and the columns there are only tokens, and no string literals. -/
theorem flatMap_planPieces {α : Type} {g : Piece → List α}
    (hg : ∀ spaced t, (∀ s, t ≠ .string s) → g (.token spaced t) = []) (columns : List Piece)
    (p : Plan) : (planPieces columns p).flatMap g =
      columns.flatMap g ++ p.conditions.flatMap fun c => (conditionPieces c).flatMap g := by
  obtain ⟨conditions, order, limit⟩ := p
  have hword : ∀ s, g (word s) = [] := fun s => hg true (.word s) (by simp)
  have hw : (wherePieces conditions).flatMap g =
      conditions.flatMap fun c => (conditionPieces c).flatMap g := by
    cases conditions with
    | nil => rfl
    | cons c cs => simp [wherePieces, List.flatMap_assoc, hword]
  have ho : (orderPieces order).flatMap g = [] := by cases order <;> simp [orderPieces, hword]
  simp [planPieces, hw, ho, hword, hg]

theorem operands_planPieces {columns : List Piece} (hc : columns.flatMap Piece.operands = [])
    (p : Plan) :
    (planPieces columns p).flatMap Piece.operands = p.conditions.flatMap operandsOf := by
  rw [flatMap_planPieces (fun _ _ _ => rfl), hc, List.nil_append, funext operands_conditionPieces]

theorem params_ofCondition (c : Condition) :
    (Filter.ofCondition c).params = (operandsOf c).map Value.ofLiteral := by
  obtain ⟨f, _ | _ | _ | _⟩ := c <;> rfl

/-- The values of the question marks are the operands of the conditions, in their order. -/
theorem native_params (p : Plan) :
    (native p).params = (p.conditions.flatMap operandsOf).map Value.ofLiteral := by
  simp only [native, Select.build, Select.params, Select.ofPlan, List.flatMap_map,
    params_ofCondition, List.map_flatMap]

def keywords : List String :=
  ["SELECT", "FROM", stocksTable, "WHERE", "AND", "BETWEEN", "ILIKE", "ESCAPE", "IN", "CAST", "AS",
    "VARCHAR", "FALSE", "ORDER", "BY", "ASC", "DESC", "LIMIT"]

/-- A token that a statement may hold apart from its operands, if its columns have `names`. -/
def Token.Fixed (names : List String) : Token → Prop
  | .word s => s ∈ keywords ++ names
  | .number ds => ∃ n, ds = digitsOf n
  | .string s => s = String.singleton likeEscape
  | .compare _ => True
  | .sign c => c ∈ [',', '(', ')', '*']

/-- Only a string literal has a quote, and nothing that is fixed a question mark. -/
theorem Token.notMem_spell {t : Token} (ht : t.Fixed Record.columns) {c : Char}
    (hc : c = '?' ∨ c = '\'' ∧ ∀ s, t ≠ .string s) : c ∉ t.spell := by
  cases t with
  | word s =>
    have hwords : ∀ s ∈ keywords ++ Record.columns, '?' ∉ s.toList ∧ '\'' ∉ s.toList := by decide
    rcases hc with rfl | ⟨rfl, -⟩
    · exact (hwords s ht).1
    · exact (hwords s ht).2
  | number ds =>
    obtain ⟨n, rfl⟩ := ht
    refine not_mem_of_digits (fun d hd => isDigit_of_mem_digitsOf hd) ?_
    rcases hc with rfl | ⟨rfl, -⟩ <;> rfl
  | string s =>
    rcases hc with rfl | ⟨-, hs⟩
    · cases ht
      decide
    · exact absurd rfl (hs s)
  | compare o => rcases hc with rfl | ⟨rfl, -⟩ <;> cases o <;> decide
  | sign d =>
    simp only [Token.Fixed, List.mem_cons, List.not_mem_nil, or_false] at ht
    rcases hc with rfl | ⟨rfl, -⟩ <;> rcases ht with rfl | rfl | rfl | rfl <;> decide

def Piece.Fixed (names : List String) : Piece → Prop
  | token _ t => t.Fixed names
  | operand _ _ => True

section

variable {names : List String}

theorem fixed_word {s : String} (h : s ∈ keywords ++ names) : (word s).Fixed names := h

theorem fixed_keyword {s : String} (h : s ∈ keywords) : (word s).Fixed names :=
  fixed_word (List.mem_append_left _ h)

theorem fixed_listed {first : Piece} {others : List Piece}
    (h : ∀ piece ∈ first :: others, piece.Fixed names) :
    ∀ piece ∈ listed first others, piece.Fixed names := by
  intro piece hp
  simp only [listed, List.mem_cons, List.mem_flatMap, List.not_mem_nil, or_false] at hp h
  rcases hp with rfl | ⟨other, ho, rfl | rfl⟩
  · exact h _ (Or.inl rfl)
  · simp [sign, Piece.Fixed, Token.Fixed]
  · exact h _ (Or.inr ho)

variable (hf : ∀ f : Field, f.column ∈ names)
include hf

theorem fixed_column (f : Field) : (word f.column).Fixed names :=
  fixed_word (List.mem_append_right _ (hf f))

theorem fixed_searchPieces (f : Field) : ∀ piece ∈ searchPieces f, piece.Fixed names := by
  have hcol := fixed_column hf f
  have hcast : (token false (.word f.column)).Fixed names := hcol
  unfold searchPieces
  split
  · simpa using hcol
  · simp only [List.forall_mem_cons]
    refine ⟨fixed_keyword (by decide), ?_, hcast, fixed_keyword (by decide),
      fixed_keyword (by decide), ?_, by simp⟩
    all_goals simp [sign, Piece.Fixed, Token.Fixed]

theorem fixed_conditionPieces (c : Condition) :
    ∀ piece ∈ conditionPieces c, piece.Fixed names := by
  have hcol := fixed_column hf c.field
  obtain ⟨f, o | _ | pattern | vs⟩ := c
  case compare =>
    simp only [conditionPieces, List.forall_mem_cons]
    exact ⟨hcol, trivial, trivial, by simp⟩
  case between =>
    simp only [conditionPieces, List.forall_mem_cons]
    exact ⟨hcol, fixed_keyword (by decide), trivial, fixed_keyword (by decide), trivial, by simp⟩
  case contains =>
    refine List.forall_mem_append.mpr ⟨fixed_searchPieces hf f, ?_⟩
    simp only [List.forall_mem_cons]
    exact ⟨fixed_keyword (by decide), trivial, fixed_keyword (by decide), rfl, by simp⟩
  case member =>
    cases vs with
    | nil =>
      have hfalse : (word "FALSE").Fixed names := fixed_keyword (by decide)
      simpa [conditionPieces] using hfalse
    | cons v vs =>
      have hl : ∀ piece ∈ listed (operand false v) (vs.map (operand true)), piece.Fixed names := by
        apply fixed_listed
        simp only [List.forall_mem_cons, List.forall_mem_map]
        exact ⟨trivial, fun _ _ => trivial⟩
      intro piece hp
      simp only [conditionPieces, List.mem_append, List.mem_cons, List.not_mem_nil, or_false] at hp
      rcases hp with ((rfl | rfl | rfl) | hp) | rfl
      · exact hcol
      · exact fixed_keyword (by decide)
      · simp [Piece.Fixed, Token.Fixed]
      · exact hl piece hp
      · simp [sign, Piece.Fixed, Token.Fixed]

theorem fixed_planPieces {columns : List Piece} (hc : ∀ piece ∈ columns, piece.Fixed names)
    (p : Plan) : ∀ piece ∈ planPieces columns p, piece.Fixed names := by
  have hwhere : ∀ piece ∈ wherePieces p.conditions, piece.Fixed names := by
    cases p.conditions with
    | nil => simp [wherePieces]
    | cons c cs =>
      intro piece hp
      simp only [wherePieces, List.mem_cons, List.mem_append, List.mem_flatMap] at hp
      rcases hp with (rfl | hp) | ⟨c, -, rfl | hp⟩
      · exact fixed_keyword (by decide)
      · exact fixed_conditionPieces hf _ piece hp
      · exact fixed_keyword (by decide)
      · exact fixed_conditionPieces hf c piece hp
  have horder : ∀ piece ∈ orderPieces p.order, piece.Fixed names := by
    rcases p.order with _ | ⟨f, d⟩
    · simp [orderPieces]
    · simp only [orderPieces, List.forall_mem_cons]
      exact ⟨fixed_keyword (by decide), fixed_keyword (by decide), fixed_column hf f,
        fixed_keyword (by cases d <;> decide), by simp⟩
  intro piece hp
  simp only [planPieces, List.mem_append, List.mem_cons, List.not_mem_nil, or_false] at hp
  rcases hp with ((((rfl | hp) | rfl | rfl) | hp) | hp) | rfl | rfl
  · exact List.mem_append_left names (show "SELECT" ∈ keywords by decide)
  · exact hc piece hp
  · exact fixed_keyword (by decide)
  · exact fixed_keyword (by decide)
  · exact hwhere piece hp
  · exact horder piece hp
  · exact fixed_keyword (by decide)
  · exact ⟨_, rfl⟩

end

theorem column_mem_columns (f : Field) : f.column ∈ Record.columns := by cases f <;> decide

theorem fixed_recordPieces : ∀ piece ∈ recordPieces, piece.Fixed Record.columns := by
  apply fixed_listed
  intro piece hp
  have hm : piece ∈ Record.columns.map word := hp
  obtain ⟨s, hs, rfl⟩ := List.mem_map.mp hm
  exact fixed_word (List.mem_append_right _ hs)

end Screener.Sql
