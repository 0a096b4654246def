import Screener.Catalog
import Screener.Proofs.Compiling
import Screener.Proofs.Sql.Matching
import Screener.Proofs.Sql.Reading

namespace Screener

def Record.value (r : Record) : Field → Literal
  | .symbol => .text r.symbol
  | .companyName => .text r.companyName
  | .sector => (r.sector.map .text).getD .null
  | .industry => (r.industry.map .text).getD .null
  | .price => .float r.price
  | .marketCap => (r.marketCap.map .float).getD .null
  | .volume => (r.volume.map .int).getD .null
  | .peRatio => (r.peRatio.map .float).getD .null
  | .dividendYield => (r.dividendYield.map .float).getD .null

def Comparison.admits : Comparison → Ordering → Bool
  | eq => Ordering.isEq
  | gt => Ordering.isGT
  | gte => Ordering.isGE
  | lt => Ordering.isLT
  | lte => Ordering.isLE

def Direction.admits : Direction → Ordering → Bool
  | ascending => Ordering.isLE
  | descending => Ordering.isGE

namespace Literal

/-- How two values compare: whole numbers exactly, other numbers as doubles. A null compares with
nothing, nor do values of different families. -/
def order? : Literal → Literal → Option Ordering
  | int m, int n => some (compare m.toInt n.toInt)
  | float x, float y => some (x.compareValue y)
  | int m, float y => (Binary.ofInt? m.toInt).map (·.compareValue y)
  | float x, int n => (Binary.ofInt? n.toInt).map (x.compareValue ·)
  | text s, text t => some (compare s t)
  | bool a, bool b => some (compare a b)
  | _, _ => none

def satisfies (v : Literal) (c : Comparison) (operand : Literal) : Bool :=
  (v.order? operand).any c.admits

def searched? : Literal → Option (List Char)
  | null => none
  | bool b => some (boolText b).toList
  | int n => some (Json.writeInt n.toInt)
  | float x => some (x.render .column)
  | text s => some s.toList

def mentions (v : Literal) (needle : String) : Bool :=
  v.searched?.any fun cs => decide (Text.lowerChars needle.toList <:+: Text.lowerChars cs)

def before (d : Direction) (a b : Literal) : Bool :=
  match a, b with
  | _, null => true
  | null, _ => false
  | a, b => (a.order? b).all d.admits

end Literal

/-- Whether a value of a field of some kind passes an operator; an operand that does not fit lets
everything pass. -/
def Operator.admits (kind : FieldKind) (v : Literal) : Operator → Json → Bool
  | .compare c, operand => (Literal.ofJson? operand).all fun l => v.satisfies c (l.coerce kind)
  | .between, .array [low, high] =>
    match Literal.ofJson? low, Literal.ofJson? high with
    | some low, some high =>
      v.satisfies .gte (low.coerce kind) && v.satisfies .lte (high.coerce kind)
    | _, _ => true
  | .between, _ => true
  | .like, operand => ((Literal.ofJson? operand).bind Literal.searchText?).all v.mentions
  | .member, .array items =>
    (items.mapM Literal.ofJson?).all (·.any fun l => v.satisfies .eq (l.coerce kind))
  | .member, _ => true

/-- Whether a record passes a clause; a clause of unknown names lets everything pass. -/
def Clause.admits (c : Clause) (r : Record) : Bool :=
  match Field.ofName? c.field, Operator.ofName? c.operator with
  | some field, some operator => operator.admits field.kind (r.value field) c.value
  | _, _ => true

namespace Query

def admits (q : Query) (r : Record) : Bool := q.clauses.all (·.admits r)

/-- Before or level with: by the key if it is one, then by symbol. -/
def before (q : Query) (a b : Record) : Bool :=
  match q.order.bind SortKey.resolve? with
  | none => a.symbol ≤ b.symbol
  | some (f, d) =>
    (a.value f).before d (b.value f) &&
      (!(b.value f).before d (a.value f) || a.symbol ≤ b.symbol)

/-- The records that a query asks for. -/
def answer (q : Query) (rows : List Record) : List Record :=
  ((rows.filter q.admits).mergeSort q.before).take (max 1 (min q.limit.toNat 1000))

end Query

theorem Clause.admits_names (f : Field) (o : Operator) (v : Json) (r : Record) :
    (⟨f.name, o.name, v⟩ : Clause).admits r = o.admits f.kind (r.value f) v := by
  rw [Clause.admits, Field.ofName?_name, Operator.ofName?_name]

/-- What each name of an operator asks of the value of a field. -/
theorem Clause.admits_by_name (f : Field) (r : Record) :
    (∀ v l, Literal.ofJson? v = some l →
      ((⟨f.name, "eq", v⟩ : Clause).admits r ↔
        (r.value f).order? (l.coerce f.kind) = some .eq) ∧
      ((⟨f.name, "gt", v⟩ : Clause).admits r ↔
        (r.value f).order? (l.coerce f.kind) = some .gt) ∧
      ((⟨f.name, "gte", v⟩ : Clause).admits r ↔
        (r.value f).order? (l.coerce f.kind) ∈ [some .gt, some .eq]) ∧
      ((⟨f.name, "lt", v⟩ : Clause).admits r ↔
        (r.value f).order? (l.coerce f.kind) = some .lt) ∧
      ((⟨f.name, "lte", v⟩ : Clause).admits r ↔
        (r.value f).order? (l.coerce f.kind) ∈ [some .lt, some .eq])) ∧
    (∀ v w low high, Literal.ofJson? v = some low → Literal.ofJson? w = some high →
      ((⟨f.name, "between", .array [v, w]⟩ : Clause).admits r ↔
        (r.value f).order? (low.coerce f.kind) ∈ [some .gt, some .eq] ∧
        (r.value f).order? (high.coerce f.kind) ∈ [some .lt, some .eq])) ∧
    (∀ v l needle, Literal.ofJson? v = some l → l.searchText? = some needle →
      ((⟨f.name, "like", v⟩ : Clause).admits r ↔ (r.value f).mentions needle)) ∧
    ∀ vs ls, vs.mapM Literal.ofJson? = some ls →
      ((⟨f.name, "in", .array vs⟩ : Clause).admits r ↔
        ∃ l ∈ ls, (r.value f).order? (l.coerce f.kind) = some .eq) := by
  have heq : ∀ o : Option Ordering, o.any (Comparison.admits .eq) = true ↔ o = some .eq := by decide
  have hgt : ∀ o : Option Ordering, o.any (Comparison.admits .gt) = true ↔ o = some .gt := by decide
  have hgte : ∀ o : Option Ordering,
      o.any (Comparison.admits .gte) = true ↔ o ∈ [some .gt, some .eq] := by decide
  have hlt : ∀ o : Option Ordering, o.any (Comparison.admits .lt) = true ↔ o = some .lt := by decide
  have hlte : ∀ o : Option Ordering,
      o.any (Comparison.admits .lte) = true ↔ o ∈ [some .lt, some .eq] := by decide
  have hcompare : ∀ (c : Comparison) v l, Literal.ofJson? v = some l →
      (⟨f.name, (Operator.compare c).name, v⟩ : Clause).admits r =
        ((r.value f).order? (l.coerce f.kind)).any c.admits := fun c v l hv => by
    rw [Clause.admits_names, Operator.admits, hv]
    rfl
  refine ⟨fun v l hv => ⟨?_, ?_, ?_, ?_, ?_⟩, fun v w low high hv hw => ?_,
    fun v l needle hv hl => ?_, fun vs ls hvs => ?_⟩
  · exact (hcompare .eq v l hv) ▸ heq _
  · exact (hcompare .gt v l hv) ▸ hgt _
  · exact (hcompare .gte v l hv) ▸ hgte _
  · exact (hcompare .lt v l hv) ▸ hlt _
  · exact (hcompare .lte v l hv) ▸ hlte _
  · have hbetween := Clause.admits_names f .between (.array [v, w]) r
    simp only [Operator.admits, hv, hw, Literal.satisfies] at hbetween
    rw [← hgte, ← hlte, ← Bool.and_eq_true_iff]
    exact Iff.of_eq (congrArg (· = true) hbetween)
  · have hlike := Clause.admits_names f .like v r
    rw [Operator.admits, hv, Option.bind_some, hl, Option.all_some] at hlike
    exact Iff.of_eq (congrArg (· = true) hlike)
  · have hmember := Clause.admits_names f .member (.array vs) r
    rw [Operator.admits, hvs, Option.all_some] at hmember
    simp only [← heq]
    rw [← List.any_eq_true]
    exact Iff.of_eq (congrArg (· = true) hmember)

section

variable {α : Type} [Ord α] [Std.TransOrd α] (d : Direction)

theorem Direction.admits_trans {a b c : α} (hab : d.admits (compare a b) = true)
    (hbc : d.admits (compare b c) = true) : d.admits (compare a c) = true := by
  cases d with
  | ascending => exact Std.TransCmp.isLE_trans hab hbc
  | descending => exact Std.TransCmp.isGE_trans hab hbc

theorem Direction.admits_total (a b : α) :
    d.admits (compare a b) = true ∨ d.admits (compare b a) = true := by
  have hswap : compare b a = (compare a b).swap := Std.OrientedCmp.eq_swap
  rw [hswap]
  cases d <;> cases compare a b <;> simp [Direction.admits]

end

def Literal.OfKind (kind : FieldKind) : Literal → Prop
  | null => True
  | bool _ => False
  | int _ => kind = .integer
  | float _ => kind = .number
  | text _ => kind = .text

theorem Record.value_ofKind (r : Record) (f : Field) : (r.value f).OfKind f.kind := by
  have hopt : ∀ {α : Type} (g : α → Literal) (o : Option α),
      (∀ a, (g a).OfKind f.kind) → ((o.map g).getD .null).OfKind f.kind := by
    intro α g o hg
    cases o with
    | none => trivial
    | some a => exact hg a
  cases f <;> first | rfl | exact hopt _ _ fun _ => rfl

namespace Literal

variable {kind : FieldKind} {a b c : Literal} (d : Direction)

theorem before_total (ha : a.OfKind kind) (hb : b.OfKind kind) :
    a.before d b = true ∨ b.before d a = true := by
  cases a <;> cases b <;> cases ha <;> cases hb
  case text.text.refl.refl s t => exact d.admits_total s t
  case int.int.refl.refl m n => exact d.admits_total m.toInt n.toInt
  case float.float.refl.refl x y => exact d.admits_total x.steps y.steps
  all_goals first | exact Or.inl rfl | exact Or.inr rfl

theorem before_trans (ha : a.OfKind kind) (hb : b.OfKind kind) (hc : c.OfKind kind)
    (hab : a.before d b = true) (hbc : b.before d c = true) : a.before d c = true := by
  cases a <;> cases b <;> cases ha <;> cases hb <;> cases c <;> cases hc
  case text.text.refl.refl.text.refl => exact d.admits_trans hab hbc
  case int.int.refl.refl.int.refl => exact d.admits_trans hab hbc
  case float.float.refl.refl.float.refl => exact d.admits_trans hab hbc
  -- With a null among them: nulls are last in either direction.
  all_goals
    first
      | rfl
      | exact absurd hab Bool.false_ne_true
      | exact absurd hbc Bool.false_ne_true

end Literal

namespace Query

variable (q : Query)

theorem before_total (a b : Record) : (q.before a b || q.before b a) = true := by
  have hsymbol := String.le_total a.symbol b.symbol
  unfold before
  split
  · simpa using hsymbol
  · rename_i f d _
    have hkey := Literal.before_total d (a.value_ofKind f) (b.value_ofKind f)
    cases h : (a.value f).before d (b.value f) <;> cases h' : (b.value f).before d (a.value f)
    · simp [h, h'] at hkey
    · simp
    · simp
    · simpa using hsymbol

theorem before_trans {a b c : Record} (hab : q.before a b = true) (hbc : q.before b c = true) :
    q.before a c = true := by
  unfold before at hab hbc ⊢
  split at hab
  · rename_i hq
    simp only [hq, decide_eq_true_eq] at hab hbc ⊢
    exact String.le_trans hab hbc
  · rename_i f d hq
    simp only [hq, Bool.and_eq_true, Bool.or_eq_true, Bool.not_eq_true', decide_eq_true_eq]
      at hab hbc ⊢
    have htrans : ∀ {x y z : Record}, (x.value f).before d (y.value f) = true →
        (y.value f).before d (z.value f) = true → (x.value f).before d (z.value f) = true :=
      fun {x y z} => Literal.before_trans d (x.value_ofKind f) (y.value_ofKind f) (z.value_ofKind f)
    refine ⟨htrans hab.1 hbc.1, ?_⟩
    -- If the ends are level, so is everything between them.
    cases hca : (c.value f).before d (a.value f) with
    | false => exact Or.inl rfl
    | true =>
      have hba := htrans hbc.1 hca
      have hcb := htrans hca hab.1
      have h1 := hab.2.resolve_left (by simp [hba])
      have h2 := hbc.2.resolve_left (by simp [hcb])
      exact Or.inr (String.le_trans h1 h2)

end Query

namespace Sql

theorem cell?_column (r : Record) (f : Field) :
    cell? r f.column = some (Datum.ofLiteral (r.value f)) := by
  have hopt : ∀ {α : Type} (g : α → Datum) (h : α → Literal) (o : Option α),
      (∀ a, g a = .ofLiteral (h a)) →
        some ((o.map g).getD .null) = some (Datum.ofLiteral ((o.map h).getD .null)) := by
    intro α g h o he
    cases o with
    | none => rfl
    | some a => exact congrArg some (he a)
  cases f <;> first | rfl | exact hopt _ _ _ fun _ => rfl

theorem order?_ofLiteral (a b : Literal) :
    (Datum.ofLiteral a).order? (.ofLiteral b) = a.order? b := by
  cases a <;> cases b <;> rfl

theorem holds_eq_admits (c : Comparison) (o : Ordering) : holds c o = c.admits o := by
  cases c <;> cases o <;> rfl

theorem compareTruth_ofLiteral (c : Comparison) (a b : Literal) :
    (compareTruth c (.ofLiteral a) (.ofLiteral b) == some true) = a.satisfies c b := by
  rw [compareTruth, order?_ofLiteral, Literal.satisfies]
  cases a.order? b with
  | none => rfl
  | some o =>
    rw [Option.map_some, holds_eq_admits, Option.any_some]
    cases c.admits o <;> rfl

theorem and_eq_true (a b : Truth) :
    (a.and b == some true) = ((a == some true) && (b == some true)) := by
  rcases a with _ | _ | _ <;> rcases b with _ | _ | _ <;> rfl

theorem or_eq_true (a b : Truth) :
    (a.or b == some true) = ((a == some true) || (b == some true)) := by
  rcases a with _ | _ | _ <;> rcases b with _ | _ | _ <;> rfl

theorem datum_column (r : Record) (f : Field) :
    (Target.column f.column).datum (cell? r) = .ofLiteral (r.value f) := by
  rw [Target.datum, cell?_column, Option.getD_some]

theorem castText_ofLiteral (l : Literal) :
    (Datum.ofLiteral l).castText =
      (l.searched?.map fun cs => Datum.text (String.ofList cs)).getD .null := by
  cases l with
  | bool b => cases b <;> rfl
  | text s => exact congrArg Datum.text String.ofList_toList.symm
  | _ => rfl

/-- A search looks at the text form of the field; a text is its own. -/
theorem datum_ofField (r : Record) (f : Field) :
    (Target.ofField f).datum (cell? r) =
      ((r.value f).searched?.map fun cs => Datum.text (String.ofList cs)).getD .null := by
  rw [← castText_ofLiteral]
  unfold Target.ofField
  split
  · rename_i hkind
    -- A field of text holds a text or nothing, and neither is changed by the cast.
    have hvalue := r.value_ofKind f
    rw [datum_column]
    rw [hkind] at hvalue
    cases hv : r.value f <;> rw [hv] at hvalue <;> first | rfl | cases hvalue
  · rw [Target.datum, cell?_column, Option.getD_some]

theorem truth_member (r : Record) (f : Field) (operands : List Literal) :
    ((Test.member (.column f.column) (operands.map .ofLiteral)).truth (cell? r) == some true) =
      operands.any fun l => (r.value f).satisfies .eq l := by
  rw [Test.truth, datum_column]
  induction operands with
  | nil => rfl
  | cons l operands ih =>
    rw [List.map_cons, List.foldr_cons, or_eq_true, ih, compareTruth_ofLiteral, List.any_cons]

theorem truth_contains (r : Record) (f : Field) (needle : String) :
    ((Test.ilike (.ofField f) (.text (containsPattern needle)) likeEscape).truth (cell? r) == some true) =
      (r.value f).mentions needle := by
  have hdatum := datum_ofField r f
  rw [Literal.mentions]
  cases hs : (r.value f).searched? with
  | none =>
    rw [hs] at hdatum
    simp [Test.truth, hdatum]
  | some cs =>
    have hmatch := ilike_containsPattern needle cs
    rw [hs] at hdatum
    simp [Test.truth, hdatum, ← hmatch]

def passes (r : Record) (c : Condition) : Bool :=
  (Test.ofCondition .ofLiteral c).truth (cell? r) == some true

section

variable (r : Record) (f : Field)

theorem passes_compare (c : Comparison) (l : Literal) :
    passes r ⟨f, .compare c l⟩ = (r.value f).satisfies c l := by
  show (compareTruth c ((Target.column f.column).datum (cell? r)) (.ofLiteral l) == some true) = _
  rw [datum_column, compareTruth_ofLiteral]

theorem passes_between (low high : Literal) :
    passes r ⟨f, .between low high⟩ =
      ((r.value f).satisfies .gte low && (r.value f).satisfies .lte high) := by
  show ((compareTruth .gte ((Target.column f.column).datum (cell? r)) (.ofLiteral low)).and
    (compareTruth .lte ((Target.column f.column).datum (cell? r)) (.ofLiteral high)) == some true) = _
  rw [and_eq_true, datum_column, compareTruth_ofLiteral, compareTruth_ofLiteral]

theorem passes_contains (needle : String) :
    passes r ⟨f, .contains (containsPattern needle)⟩ = (r.value f).mentions needle :=
  truth_contains r f needle

theorem passes_member (ls : List Literal) :
    passes r ⟨f, .member ls⟩ = ls.any fun l => (r.value f).satisfies .eq l := by
  cases ls with
  | nil => rfl
  | cons l ls => exact truth_member r f (l :: ls)

end

theorem passes_ofOperand? (r : Record) (f : Field) (o : Operator) (operand : Json) :
    ((Predicate.ofOperand? f.kind o operand).all fun p => passes r ⟨f, p⟩) =
      o.admits f.kind (r.value f) operand := by
  cases o with
  | compare c =>
    cases h : Literal.ofJson? operand <;>
      simp [Predicate.ofOperand?, Operator.admits, h, passes_compare]
  | between =>
    cases operand with
    | array items =>
      obtain _ | ⟨low, _ | ⟨high, _ | _⟩⟩ := items
      case cons.cons.nil =>
        cases hl : Literal.ofJson? low <;> cases hh : Literal.ofJson? high <;>
          simp [Predicate.ofOperand?, Operator.admits, hl, hh, passes_between]
      all_goals rfl
    | _ => rfl
  | like =>
    cases h : Literal.ofJson? operand with
    | none => simp [Predicate.ofOperand?, Operator.admits, h]
    | some l =>
      cases hs : l.searchText? <;>
        simp [Predicate.ofOperand?, Operator.admits, h, hs, passes_contains]
  | member =>
    cases operand with
    | array items =>
      simp only [Predicate.ofOperand?, Operator.admits, mapM_coerce]
      cases items.mapM Literal.ofJson? <;> simp [passes_member, Function.comp_def]
    | _ => rfl

theorem passes_ofClause? (r : Record) (c : Clause) :
    ((Condition.ofClause? c).all (passes r)) = c.admits r := by
  unfold Condition.ofClause? Clause.admits
  cases Field.ofName? c.field with
  | none => rfl
  | some f =>
    cases Operator.ofName? c.operator with
    | none => rfl
    | some o =>
      have hp := passes_ofOperand? r f o c.value
      cases h : Predicate.ofOperand? f.kind o c.value <;> rw [h] at hp <;> simpa [h] using hp

/-- The tests of a plan keep the records that every clause admits. -/
theorem keeps_ofPlan (q : Query) (columns : Option (List String)) (r : Record) :
    (Statement.ofPlan .ofLiteral columns (.ofQuery q)).keeps (cell? r) = q.admits r := by
  show ((Condition.ofClauses q.clauses).map (Test.ofCondition .ofLiteral)).all
    (fun t => t.truth (cell? r) == some true) = q.clauses.all (·.admits r)
  rw [List.all_map, Condition.ofClauses, List.all_filterMap]
  refine congrArg (fun p => q.clauses.all p) (funext fun c => ?_)
  rw [← passes_ofClause?]
  cases Condition.ofClause? c <;> rfl

theorem keyLe_eq_admits {a b : Datum} (ha : a ≠ .null) (hb : b ≠ .null) (d : Direction) :
    keyLe d a b = (a.order? b).all d.admits := by
  unfold keyLe
  split
  · exact absurd rfl ha
  · exact absurd rfl ha
  · exact absurd rfl hb
  · cases a.order? b with
    | none => rfl
    | some o => cases o <;> cases d <;> rfl

theorem keyLe_ofLiteral (d : Direction) (a b : Literal) :
    keyLe d (.ofLiteral a) (.ofLiteral b) = a.before d b := by
  have hkey := fun ha hb => keyLe_eq_admits (a := .ofLiteral a) (b := .ofLiteral b) ha hb d
  cases a <;> cases b <;> first | rfl | exact hkey nofun nofun

theorem columnLe_column (d : Direction) (f : Field) (a b : Record) :
    columnLe d f.column (cell? a) (cell? b) = (a.value f).before d (b.value f) := by
  rw [columnLe, cell?_column, cell?_column, Option.getD_some, Option.getD_some, keyLe_ofLiteral]

theorem columnLe_symbol (a b : Record) :
    columnLe .ascending "symbol" (cell? a) (cell? b) = decide (a.symbol ≤ b.symbol) := by
  have hle : (compare a.symbol b.symbol).isLE = true ↔ a.symbol ≤ b.symbol :=
    isLE_compareOfLessAndEq String.le_antisymm String.not_le String.le_total
  rw [Bool.eq_iff_iff, decide_eq_true_iff, ← hle]
  exact Iff.of_eq (congrArg (· = true) (columnLe_column .ascending .symbol a b))

theorem rowLe_ofPlan (q : Query) (a b : Record) :
    rowLe ((q.order.bind SortKey.resolve?).map fun (f, d) => (f.column, d)) (cell? a)
        (cell? b) = q.before a b := by
  unfold Query.before
  cases q.order.bind SortKey.resolve? with
  | none => exact columnLe_symbol a b
  | some k => simp [rowLe, columnLe_column, columnLe_symbol]

theorem runBound_of_ofBound? {b : Bound} {s : Statement} (h : Statement.ofBound? b = some s)
    (table : Option (List Record)) : runBound b table = s.run table := by
  rw [runBound, h]

theorem fits_ofLiteral {kind : FieldKind} {l : Literal} (h : l.Fits kind) :
    (Datum.ofLiteral l).fits kind = true := by
  cases l <;> cases kind <;> first | rfl | simp [Literal.Fits] at h

theorem fits_ofText {kind : FieldKind} {l : Literal} (h : l.Fits kind) :
    (Datum.ofText l).fits kind = true := by
  cases l with
  | float x =>
    rw [Datum.ofText, Datum.ofDouble]
    obtain ⟨hkind, -⟩ := h
    split <;> cases kind <;> first | rfl | exact absurd rfl hkind
  | _ => exact fits_ofLiteral h

theorem takes_column {f : Field} {d : Datum} (h : d.fits f.kind = true) :
    (Target.column f.column).takes d = true := by
  rw [Target.takes, Target.kind?, Field.column, Field.ofName?_name]
  exact h

theorem takes_ofField {f : Field} {d : Datum} (h : d.fits .text = true) :
    (Target.ofField f).takes d = true := by
  cases f <;> exact h

/-- No comparison of a plan needs a conversion that could fail, in either of its texts. -/
theorem converts_ofCondition {datum : Literal → Datum}
    (hd : ∀ {kind : FieldKind} {l : Literal}, l.Fits kind → (datum l).fits kind = true)
    {c : Condition} (hc : c.WellTyped) : (Test.ofCondition datum c).converts = true := by
  obtain ⟨f, o | _ | pattern | ls⟩ := c
  case compare l => exact takes_column (hd hc)
  case between low high =>
    exact Bool.and_eq_true_iff.mpr ⟨takes_column (hd hc.1), takes_column (hd hc.2)⟩
  case contains => exact takes_ofField (hd (l := .text pattern) rfl)
  case member =>
    cases ls with
    | nil => rfl
    | cons l ls =>
      show (((l :: ls).map datum).all (Target.column f.column).takes) = true
      rw [List.all_map, List.all_eq_true]
      exact fun k hk => takes_column (hd (hc k hk))

/-- Every column that a plan names is there, and its operands are of the families of their fields,
so its statement runs. -/
theorem run_ofPlan {datum : Literal → Datum}
    (hd : ∀ {kind : FieldKind} {l : Literal}, l.Fits kind → (datum l).fits kind = true)
    {columns : Option (List String)} (hc : ∀ n ∈ columns.getD [], n ∈ Record.columns) {p : Plan}
    (hp : ∀ c ∈ p.conditions, c.WellTyped) (rows : List Record) :
    (Statement.ofPlan datum columns p).run (some rows) =
      .ok ((Statement.ofPlan datum columns p).select rows) := by
  -- A column comes from a field of a condition, from the key or from the list that is asked for.
  have htest : ∀ c : Condition, ∀ n ∈ (Test.ofCondition datum c).columns, n ∈ Record.columns := by
    rintro ⟨f, _ | _ | _ | vs⟩ n hn
    case contains =>
      rw [List.mem_singleton.mp hn, Target.name_ofField]
      exact column_mem_columns f
    case member =>
      cases vs with
      | nil => cases hn
      | cons v vs =>
        rw [List.mem_singleton.mp hn]
        exact column_mem_columns f
    all_goals
      rw [List.mem_singleton.mp hn]
      exact column_mem_columns f
  have hnamed : ∀ n ∈ (Statement.ofPlan datum columns p).namedColumns, n ∈ Record.columns := by
    intro n hn
    simp only [Statement.namedColumns, Statement.ofPlan, List.mem_append, List.mem_flatMap,
      List.mem_map, Option.mem_toList, Option.map_map] at hn
    rcases hn with (hn | ⟨t, ⟨c, -, rfl⟩, hn⟩) | hn
    · exact hc n hn
    · exact htest c n hn
    · obtain ⟨⟨f, d⟩, -, rfl⟩ := Option.map_eq_some_iff.mp hn
      exact column_mem_columns f
  have hfind : (Statement.ofPlan datum columns p).namedColumns.find?
      (!Record.columns.contains ·) = none := by
    rw [List.find?_eq_none]
    intro n hn
    simpa using hnamed n hn
  have htable : ¬(Statement.ofPlan datum columns p).table ≠ stocksTable := not_not.mpr rfl
  have hconverts : (Statement.ofPlan datum columns p).tests.all Test.converts = true := by
    rw [Statement.ofPlan, List.all_map, List.all_eq_true]
    exact fun c hc => converts_ofCondition hd (hp c hc)
  simp only [Statement.run, if_neg htable, hfind, if_pos hconverts]

theorem select_ofPlan (q : Query) (columns : Option (List String)) (rows : List Record) :
    (Statement.ofPlan .ofLiteral columns (.ofQuery q)).select rows = q.answer rows := by
  have hkeeps : (fun r => (Statement.ofPlan .ofLiteral columns (.ofQuery q)).keeps (cell? r)) =
      q.admits :=
    funext (keeps_ofPlan q columns)
  have hle : (fun a b => rowLe (Statement.ofPlan .ofLiteral columns (.ofQuery q)).order (cell? a)
      (cell? b)) = q.before :=
    funext fun a => funext fun b => rowLe_ofPlan q a b
  rw [Statement.select, Statement.selectBy, hkeeps, hle]
  rfl

theorem query_eq_select (q : Query) (rows : List Record) :
    Catalog.query q ⟨some rows⟩ =
      .ok ((Statement.ofPlan .ofLiteral (some Record.columns) (.ofQuery q)).select rows) := by
  have hnames : ∀ n ∈ (some Record.columns).getD [], n ∈ Record.columns := fun _ h => h
  rw [Catalog.query, runBound_of_ofBound? (ofBound?_native (limit_lt_size q)),
    run_ofPlan fits_ofLiteral hnames fun c => wellTyped_of_mem]

end Sql

end Screener
