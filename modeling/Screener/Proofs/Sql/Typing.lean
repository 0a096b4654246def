import Screener.Proofs.Sql.Scanning

namespace Screener.Sql

namespace Token

/-- The numbers among tokens, each with the minus sign right before it if there is one. -/
def numbers : List Token → List (List Char)
  | .sign '-' :: .number ds :: ts => ('-' :: ds) :: numbers ts
  | .number ds :: ts => ds :: numbers ts
  | _ :: ts => numbers ts
  | [] => []

/-- A word that a statement has of its own, the null, or a number without an exponent. -/
def Regular : Token → Prop
  | word s => s ∈ keywords ++ "NULL" :: Field.all.map Field.column
  | number ds => IsNumeral ds
  | _ => True

theorem signed_of_mem_numbers {ts : List Token} (h : ∀ t ∈ ts, t.Regular) {n : List Char}
    (hn : n ∈ numbers ts) : ∃ negative ds, n = signed negative ds ∧ IsNumeral ds := by
  fun_induction numbers ts with
  | case1 ds ts ih =>
    rcases List.mem_cons.mp hn with rfl | hn
    · exact ⟨true, ds, rfl, h (.number ds) (by simp)⟩
    · exact ih (fun t ht => h t (by simp [ht])) hn
  | case2 ds ts ih =>
    rcases List.mem_cons.mp hn with rfl | hn
    · exact ⟨false, n, rfl, h (.number n) (by simp)⟩
    · exact ih (fun t ht => h t (by simp [ht])) hn
  | case3 t ts _ _ ih => exact ih (fun t ht => h t (by simp [ht])) hn
  | case4 => cases hn

end Token

theorem regular_literalTokens {l : Literal} (h : ∀ b, l ≠ .bool b) :
    ∀ t ∈ literalTokens l, t.Regular := by
  have hsigned : ∀ (negative : Bool) {ds : List Char}, IsNumeral ds →
      ∀ t ∈ signedTokens negative ds, t.Regular := by
    intro negative ds hd t ht
    rcases List.mem_append.mp ht with ht | ht
    · cases negative with
      | false => cases ht
      | true =>
        rw [List.mem_singleton.mp ht]
        trivial
    · rw [List.mem_singleton.mp ht]
      exact hd
  cases l with
  | null =>
    have hnull : (Token.word "NULL").Regular := List.mem_append_right _ (by simp)
    simpa [literalTokens] using hnull
  | bool b => exact absurd rfl (h b)
  | int n => exact hsigned _ (isNumeral_digitsOf _)
  | float x => exact hsigned _ x.isNumeral_digits
  | text s => simp [literalTokens, Token.Regular]

theorem regular_of_fixed {piece : Piece} (hf : piece.Fixed (Field.all.map Field.column))
    (hb : ∀ l ∈ piece.operands, ∀ b, l ≠ .bool b) :
    ∀ t ∈ piece.tokens literalTokens, t.Regular := by
  cases piece with
  | operand _ l => exact regular_literalTokens (hb l (by simp [Piece.operands]))
  | token _ t =>
    have ht : t.Fixed (Field.all.map Field.column) := hf
    have hregular : t.Regular := by
      cases t with
      | word s =>
        rcases List.mem_append.mp ht with h | h
        · exact List.mem_append_left _ h
        · exact List.mem_append_right _ (List.mem_cons_of_mem _ h)
      | number ds =>
        obtain ⟨n, rfl⟩ := ht
        exact isNumeral_digitsOf n
      | string _ | compare _ | sign _ => trivial
    simpa [Piece.tokens] using hregular

/-- The tokens of the shown text. -/
theorem regular_sql (q : Query) :
    ∃ ts, Token.ofText? q.sql = some ts ∧ ∀ t ∈ ts, t.Regular := by
  have hfixed : ∀ piece ∈ planPieces starPieces (.ofQuery q),
      piece.Fixed (Field.all.map Field.column) :=
    fixed_planPieces (fun f => List.mem_map_of_mem (Field.mem_all f))
      (by simp [starPieces, Piece.Fixed, Token.Fixed]) _
  refine ⟨_, (lexed_audit (.ofQuery q)).ofText?_eq, fun t ht => ?_⟩
  obtain ⟨piece, hp, htp⟩ := List.mem_flatMap.mp ht
  exact regular_of_fixed (hfixed piece hp) (fun l hl => operands_ne_bool hp hl) t htp

theorem boolean_notMem_params (q : Query) (b : Bool) :
    Value.boolean b ∉ (native (.ofQuery q)).params := by
  rw [native_params]
  intro h
  obtain ⟨l, hl, he⟩ := List.mem_map.mp h
  obtain ⟨c, hc, hlc⟩ := List.mem_flatMap.mp hl
  cases l with
  | bool a => exact operandsOf_ne_bool hc hlc a rfl
  | _ => cases he

/-- Whatever was asked, the operands of a plan are of the families of their fields and its patterns
are escaped; no truth value is bound, every number shown is written out with a point at most, and the
limit is at least one and at most a thousand. -/
theorem ofQuery_wellTyped (q : Query) :
    (∀ c ∈ (Plan.ofQuery q).conditions, c.WellTyped) ∧
    (∀ b, Value.boolean b ∉ (native (.ofQuery q)).params) ∧
    (∃ ts, Token.ofText? q.sql = some ts ∧ (∀ t ∈ ts, t.Regular) ∧
      ∀ n ∈ Token.numbers ts, ∃ negative ds, n = signed negative ds ∧ IsNumeral ds) ∧
    1 ≤ (Plan.ofQuery q).limit ∧ (Plan.ofQuery q).limit ≤ 1000 := by
  obtain ⟨ts, hts, hregular⟩ := regular_sql q
  have hlimit : 1 ≤ q.effectiveLimit ∧ q.effectiveLimit ≤ 1000 := by
    unfold Query.effectiveLimit maxLimit
    omega
  exact ⟨fun c => wellTyped_of_mem, boolean_notMem_params q,
    ⟨ts, hts, hregular, fun n => Token.signed_of_mem_numbers hregular⟩, hlimit⟩

end Screener.Sql
