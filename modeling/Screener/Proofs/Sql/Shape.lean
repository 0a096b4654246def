import Screener.Proofs.Sql.Pieces

namespace Screener

inductive Shape where
  | compare (c : Comparison)
  | between
  | contains
  | member (size : Nat)
deriving DecidableEq

def Predicate.shape : Predicate → Shape
  | compare c _ => .compare c
  | between _ _ => .between
  | contains _ => .contains
  | member values => .member values.length

def Condition.form (c : Condition) : Field × Shape := (c.field, c.predicate.shape)

namespace Sql

theorem text_member_eq (column : String) {vs vs' : List Value} (h : vs.length = vs'.length) :
    (Filter.member column vs).text = (Filter.member column vs').text := by
  cases vs with
  | nil =>
    rw [List.length_eq_zero_iff.mp h.symm]
  | cons v vs =>
    cases vs' with
    | nil => exact absurd h (Nat.succ_ne_zero _)
    | cons v' vs' => simp only [Filter.text, List.map_const', h]

/-- The text of a test tells nothing of an operand but that there is one. -/
theorem text_ofCondition_eq {c c' : Condition} (h : c.form = c'.form) :
    (Filter.ofCondition c).text = (Filter.ofCondition c').text := by
  obtain ⟨f, p⟩ := c
  obtain ⟨f', p'⟩ := c'
  obtain ⟨hf, hs⟩ := Prod.mk.inj h
  obtain rfl : f = f' := hf
  cases p with
  | compare o v =>
    cases p' with
    | compare o' v' =>
      obtain rfl : o = o' := Shape.compare.inj hs
      rfl
    | _ => exact Shape.noConfusion hs
  | between low high =>
    cases p' with
    | between low' high' => rfl
    | _ => exact Shape.noConfusion hs
  | contains pattern =>
    cases p' with
    | contains pattern' => rfl
    | _ => exact Shape.noConfusion hs
  | member ls =>
    cases p' with
    | member ls' =>
      have hlength : ls.length = ls'.length := Shape.member.inj hs
      exact text_member_eq f.column (by simpa using hlength)
    | _ => exact Shape.noConfusion hs

theorem map_text_ofCondition_eq {cs cs' : List Condition}
    (h : cs.map Condition.form = cs'.map Condition.form) :
    (cs.map Filter.ofCondition).map Filter.text = (cs'.map Filter.ofCondition).map Filter.text := by
  induction cs generalizing cs' with
  | nil => rw [List.map_eq_nil_iff.mp h.symm]
  | cons c cs ih =>
    cases cs' with
    | nil => exact absurd h (List.cons_ne_nil _ _)
    | cons c' cs' =>
      obtain ⟨hc, hcs⟩ := List.cons.inj h
      rw [List.map_cons, List.map_cons, List.map_cons, List.map_cons, text_ofCondition_eq hc,
        ih hcs]

/-- A statement has its tests for their texts alone. -/
theorem Select.sql_eq {s s' : Select} (ht : s.table = s'.table) (hc : s.columns = s'.columns)
    (hf : s.filters.map Filter.text = s'.filters.map Filter.text) (ho : s.order = s'.order)
    (hl : s.limit = s'.limit) : s.sql = s'.sql := by
  have hempty : s.filters.isEmpty = s'.filters.isEmpty := by
    rw [← List.isEmpty_map (f := Filter.text), hf, List.isEmpty_map]
  rw [Select.sql, Select.sql, ht, hc, hf, hempty, ho, hl]

/-- Plans of one form are run with one text, whatever their operands, and the operands are bound in
the order of the conditions, each of them once. -/
theorem native_sql_eq_of_form (p : Plan) :
    (∀ p' : Plan, p'.order = p.order → p'.limit = p.limit →
      p'.conditions.map Condition.form = p.conditions.map Condition.form →
        (native p').sql = (native p).sql) ∧
    (native p).params = (p.conditions.flatMap operandsOf).map Value.ofLiteral := by
  refine ⟨fun p' ho hl hf => ?_, native_params p⟩
  have horder : (Select.ofPlan p').order = (Select.ofPlan p).order := by
    rw [Select.ofPlan, Select.ofPlan, ho]
  have hlimit : (Select.ofPlan p').limit = (Select.ofPlan p).limit := by
    rw [Select.ofPlan, Select.ofPlan, hl]
  exact Select.sql_eq rfl rfl (map_text_ofCondition_eq hf) horder hlimit

def plainPlan : Plan where
  conditions :=
    [⟨.symbol, .compare .eq (.text "AAPL")⟩, ⟨.volume, .between (.int 1) (.int 2)⟩,
      ⟨.companyName, .contains "%app%"⟩, ⟨.sector, .member [.text "Energy", .text "Health"]⟩,
      ⟨.industry, .member []⟩]
  order := some (.price, .descending)
  limit := 5

/-- The same conditions with operands that would end a literal, a mark or a statement. -/
def hostilePlan : Plan where
  conditions :=
    [⟨.symbol, .compare .eq (.text "'; DROP TABLE stocks; --")⟩,
      ⟨.volume, .between .null (.text "? AND ?")⟩, ⟨.companyName, .contains "%' OR '1' = '1%"⟩,
      ⟨.sector, .member [.text "?", .bool true]⟩, ⟨.industry, .member []⟩]
  order := some (.price, .descending)
  limit := 5

theorem native_sql_hostile :
    (hostilePlan.order = plainPlan.order ∧ hostilePlan.limit = plainPlan.limit ∧
      hostilePlan.conditions.map Condition.form = plainPlan.conditions.map Condition.form) ∧
    (native hostilePlan).sql = (native plainPlan).sql ∧
    (native hostilePlan).params =
      [.text "'; DROP TABLE stocks; --", .null, .text "? AND ?", .text "%' OR '1' = '1%",
        .text "?", .boolean true] :=
  ⟨⟨rfl, rfl, by decide⟩,
    (native_sql_eq_of_form plainPlan).1 hostilePlan rfl rfl (by decide),
    (native_sql_eq_of_form hostilePlan).2⟩

end Sql

end Screener
