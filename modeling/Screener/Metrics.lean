import Screener.Number.Decimal

namespace Screener

/-- Observations by size. Each is counted under the first bound that it does not exceed. -/
structure Histogram where
  counts : List Nat
  total : Nat
  sum : Extended .double
deriving DecidableEq

namespace Histogram

def decimalBounds : List Decimal :=
  [⟨5, -2⟩, ⟨1, -1⟩, ⟨25, -2⟩, ⟨5, -1⟩, ⟨1, 0⟩, ⟨25, -1⟩, ⟨5, 0⟩, ⟨10, 0⟩, ⟨30, 0⟩]

def bounds : List Double :=
  decimalBounds.filterMap fun d => Binary.ofDecimal? false d.coefficient d.exponent

def empty : Histogram := ⟨bounds.map fun _ => 0, 0, .finite Double.zero⟩

def atMost (x bound : Double) : Bool := x.compareValue bound != .gt

/-- One more in the first bucket that holds `x`; beyond the last bound no bucket changes. -/
def place (x : Double) : List Double → List Nat → List Nat
  | b :: bs, n :: ns => if atMost x b then (n + 1) :: ns else n :: place x bs ns
  | _, ns => ns

def observe (h : Histogram) (x : Double) : Histogram :=
  ⟨place x bounds h.counts, h.total + 1, h.sum.add (.finite x)⟩

/-- The sums of the first one, two, … counts, `before` included. -/
def running (before : Nat) : List Nat → List Nat
  | [] => []
  | n :: ns => (before + n) :: running (before + n) ns

def cumulative (h : Histogram) : List (Double × Nat) := bounds.zip (running 0 h.counts)

end Histogram

structure Metrics where
  /-- In the order of the labels, each label once. -/
  counters : List (String × Nat)
  durations : Histogram
deriving DecidableEq

namespace Metrics

def empty : Metrics := ⟨[], .empty⟩

def increment (label : String) : List (String × Nat) → List (String × Nat)
  | [] => [(label, 1)]
  | (l, n) :: rest =>
    if label < l then (label, 1) :: (l, n) :: rest
    else if label = l then (l, n + 1) :: rest
    else (l, n) :: increment label rest

def record (m : Metrics) (outcome : String) (seconds : Double) : Metrics :=
  ⟨increment outcome m.counters, m.durations.observe seconds⟩

def count (m : Metrics) (outcome : String) : Nat :=
  ((m.counters.find? (·.1 = outcome)).map (·.2)).getD 0

def counterName : String := "stockql_queries_total"

def histogramName : String := "stockql_query_duration_seconds"

def quoted (label : String) : String :=
  let escape (c : Char) : List Char :=
    if c = '\\' ∨ c = '"' then ['\\', c] else if c = '\n' then ['\\', 'n'] else [c]
  "\"" ++ String.ofList (label.toList.flatMap escape) ++ "\""

def sample (name label value : String) (n : Nat) : String :=
  name ++ "\x7b" ++ label ++ "=" ++ quoted value ++ "\x7d " ++ toString n

def heading (name help type : String) : List String :=
  ["# HELP " ++ name ++ " " ++ help, "# TYPE " ++ name ++ " " ++ type]

/-- Counters are left out as long as there is none. -/
def counterLines (m : Metrics) : List String :=
  if m.counters.isEmpty then []
  else heading counterName "Total number of queries handled" "counter" ++
    m.counters.map fun (label, n) => sample counterName "outcome" label n

def histogramLines (h : Histogram) : List String :=
  let bucket (bound : String) (n : Nat) := sample (histogramName ++ "_bucket") "le" bound n
  heading histogramName "End-to-end query latency in seconds" "histogram" ++
    (h.cumulative.map fun (b, n) => bucket b.text n) ++
    [bucket "+Inf" h.total, histogramName ++ "_sum " ++ h.sum.text,
      histogramName ++ "_count " ++ toString h.total]

def lines (m : Metrics) : List String := m.counterLines ++ histogramLines m.durations

def text (m : Metrics) : String := String.join (m.lines.map (· ++ "\n"))

end Metrics

end Screener
