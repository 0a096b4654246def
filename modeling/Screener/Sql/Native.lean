import Screener.Record
import Screener.Sql.Audit
import Screener.Sql.Select

namespace Screener.Sql

def Filter.ofCondition (c : Condition) : Filter :=
  match c.predicate with
  | .compare o v => .compare c.column o (.ofLiteral v)
  | .between low high => .between c.column (.ofLiteral low) (.ofLiteral high)
  | .contains pattern => .ilike c.target pattern
  | .member values => .member c.column (values.map Value.ofLiteral)

def Select.ofPlan (p : Plan) : Select where
  table := stocksTable
  columns := Record.columns
  filters := p.conditions.map Filter.ofCondition
  order := p.order.map fun (f, d) => (f.column, d)
  limit := some (UInt32.ofNat p.limit)

def native (p : Plan) : Bound := (Select.ofPlan p).build

end Screener.Sql
