import Screener.Proofs.Sql.Scanning

namespace Screener.Sql

/-- The same operand, or a whole number and a double that have one text. -/
def LiteralAlike (a b : Literal) : Prop :=
  a = b ∨ ∃ (n : Int64) (x : Double), intText n = x.text ∧
    ((a = .int n ∧ b = .float x) ∨ (a = .float x ∧ b = .int n))

def PredicateAlike : Predicate → Predicate → Prop
  | .compare o a, .compare o' b => o = o' ∧ LiteralAlike a b
  | .between low high, .between low' high' => LiteralAlike low low' ∧ LiteralAlike high high'
  | .contains pattern, .contains pattern' => pattern = pattern'
  | .member ls, .member ls' => List.Forall₂ LiteralAlike ls ls'
  | _, _ => False

/-- Conditions on one field with like predicates; the empty set is alike in every field. -/
def ConditionAlike (c d : Condition) : Prop :=
  (c.predicate = .member [] ∧ d.predicate = .member []) ∨
    (c.field = d.field ∧ PredicateAlike c.predicate d.predicate)

def PlanAlike (p p' : Plan) : Prop :=
  List.Forall₂ ConditionAlike p.conditions p'.conditions ∧ p.order = p'.order ∧ p.limit = p'.limit

theorem LiteralAlike.literal_eq {a b : Literal} (h : LiteralAlike a b) : literal a = literal b := by
  rcases h with rfl | ⟨n, x, he, ⟨rfl, rfl⟩ | ⟨rfl, rfl⟩⟩
  · rfl
  · exact he
  · exact he.symm

theorem map_literal_eq {ls ls' : List Literal} (h : List.Forall₂ LiteralAlike ls ls') :
    ls.map literal = ls'.map literal := by
  induction h with
  | nil => rfl
  | cons hab _ ih => rw [List.map_cons, List.map_cons, hab.literal_eq, ih]

theorem ConditionAlike.condition_eq {c d : Condition} (h : ConditionAlike c d) :
    condition c = condition d := by
  obtain ⟨f, p⟩ := c
  obtain ⟨g, p'⟩ := d
  rcases h with ⟨hc, hd⟩ | ⟨hfield, hp⟩
  · cases hc
    cases hd
    rfl
  · cases hfield
    cases p <;> cases p'
    case compare.compare o a o' b =>
      obtain ⟨rfl, hab⟩ := hp
      simp [condition, Condition.column, hab.literal_eq]
    case between.between low high low' high' =>
      obtain ⟨hlow, hhigh⟩ := hp
      simp [condition, Condition.column, hlow.literal_eq, hhigh.literal_eq]
    case contains.contains pattern pattern' =>
      cases hp
      rfl
    case member.member ls ls' =>
      have hmap := map_literal_eq hp
      cases hp with
      | nil => rfl
      | cons _ _ => simp only [condition, Condition.column, hmap]
    all_goals exact hp.elim

theorem signedTokens_inj {m n : Bool} {ds es : List Char}
    (h : signedTokens m ds = signedTokens n es) : m = n ∧ ds = es := by
  cases m <;> cases n <;> simp [signedTokens] at h <;> simp [h]

theorem literalAlike_of_tokens {a b : Literal} (h : literalTokens a = literalTokens b) :
    LiteralAlike a b := by
  have hlast := congrArg List.getLast? h
  cases a <;> cases b
  case int.int m n =>
    obtain ⟨hs, hd⟩ := signedTokens_inj h
    have habs := digitsOf_injective hd
    have hneg : m.toInt < 0 ↔ n.toInt < 0 := by simpa using hs
    have he : m.toInt = n.toInt := by omega
    exact Or.inl (congrArg Literal.int (Int64.toInt_inj.mp he))
  case float.float x y =>
    obtain ⟨hs, hd⟩ := signedTokens_inj h
    have ht : x.text = y.text := by
      rw [Binary.text, Binary.text, Binary.render_plain, Binary.render_plain, hs, hd]
    exact Or.inl (congrArg Literal.float (Binary.text_injective ht))
  case int.float n x =>
    obtain ⟨hs, hd⟩ := signedTokens_inj h
    -- The one case in which different operands share their tokens.
    refine Or.inr ⟨n, x, ?_, Or.inl ⟨rfl, rfl⟩⟩
    rw [intText, writeInt_eq, hs, hd]
    rfl
  case float.int x n =>
    obtain ⟨hs, hd⟩ := signedTokens_inj h
    refine Or.inr ⟨n, x, ?_, Or.inr ⟨rfl, rfl⟩⟩
    rw [intText, writeInt_eq, ← hs, ← hd]
    rfl
  case text.text s t =>
    have hst : s = t := by simpa [literalTokens] using h
    exact Or.inl (congrArg Literal.text hst)
  case null.null => exact Or.inl rfl
  case bool.bool b c =>
    cases b <;> cases c <;> first | exact Or.inl rfl | simp [literalTokens] at h
  case null.bool b | bool.null b => cases b <;> simp [literalTokens] at h
  case bool.text b _ | text.bool _ b => cases b <;> simp [literalTokens] at h
  case bool.int b _ | bool.float b _ | int.bool _ b | float.bool _ b =>
    cases b <;> simp [literalTokens, signedTokens] at hlast
  all_goals simp [literalTokens, signedTokens] at hlast

theorem length_literalTokens (l : Literal) : (literalTokens l).length =
    if (literalTokens l).head? = some (.sign '-') then 2 else 1 := by
  have hsigned : ∀ (negative : Bool) (ds : List Char), (signedTokens negative ds).length =
      if (signedTokens negative ds).head? = some (.sign '-') then 2 else 1 := by
    intro negative ds
    cases negative <;> simp [signedTokens]
  cases l with
  | null => rfl
  | bool b => cases b <;> rfl
  | int n => exact hsigned _ _
  | float x => exact hsigned _ _
  | text s => rfl

/-- The tokens of an operand show where they end. -/
theorem literalTokens_append {a b : Literal} {ts us : List Token}
    (h : literalTokens a ++ ts = literalTokens b ++ us) : LiteralAlike a b ∧ ts = us := by
  -- The first token says how many there are, so equal starts are of equal length.
  have hne : ∀ l, literalTokens l ≠ [] := by
    intro l hl
    have := length_literalTokens l
    rw [hl] at this
    cases this
  have hhead : (literalTokens a).head? = (literalTokens b).head? := by
    have hh := congrArg List.head? h
    rwa [List.head?_append_of_ne_nil _ (hne a), List.head?_append_of_ne_nil _ (hne b)] at hh
  have hlen : (literalTokens a).length = (literalTokens b).length := by
    rw [length_literalTokens, length_literalTokens, hhead]
  obtain ⟨htokens, hrest⟩ := List.append_inj h hlen
  exact ⟨literalAlike_of_tokens htokens, hrest⟩

theorem listed_append {ls ls' : List Literal} (hlen : ls.length = ls'.length) {ts us : List Token}
    (h : (ls.flatMap fun l => .sign ',' :: literalTokens l) ++ ts =
      (ls'.flatMap fun l => .sign ',' :: literalTokens l) ++ us) :
    List.Forall₂ LiteralAlike ls ls' ∧ ts = us := by
  induction ls generalizing ls' with
  | nil =>
    rw [List.length_eq_zero_iff.mp hlen.symm] at h ⊢
    exact ⟨.nil, h⟩
  | cons a ls ih =>
    obtain ⟨b, ls', rfl⟩ := List.exists_cons_of_length_eq_add_one hlen.symm
    simp only [List.flatMap_cons, List.cons_append, List.cons.injEq, true_and,
      List.append_assoc] at h
    obtain ⟨hab, hrest⟩ := literalTokens_append h
    obtain ⟨hls, hts⟩ := ih (by simpa using hlen) hrest
    exact ⟨.cons hab hls, hts⟩

def conditionTokens (c : Condition) : List Token :=
  (conditionPieces c).flatMap (Piece.tokens literalTokens)

theorem column_injective {f g : Field} (h : f.column = g.column) : f = g := Field.name_injective h

theorem ofField_injective {f g : Field} (h : Target.ofField f = Target.ofField g) : f = g := by
  have hn := congrArg Target.name h
  rw [Target.name_ofField, Target.name_ofField] at hn
  exact column_injective hn

/-- Conditions of one test are told apart by their tokens. -/
theorem conditionTokens_append {c d : Condition}
    (htest : Test.ofCondition .ofText c = Test.ofCondition .ofText d) {ts us : List Token}
    (h : conditionTokens c ++ ts = conditionTokens d ++ us) : ConditionAlike c d ∧ ts = us := by
  obtain ⟨f, p⟩ := c
  obtain ⟨g, p'⟩ := d
  cases p <;> cases p'
  -- The test settles the field and the operator. It does not settle the operands, as a zero of
  -- either sign is read as one number; these are settled by their tokens.
  case compare.compare o a o' b =>
    simp only [Test.ofCondition, Test.compare.injEq, Target.column.injEq] at htest
    obtain ⟨hf, rfl, -⟩ := htest
    cases column_injective hf
    have hrest : literalTokens a ++ ts = literalTokens b ++ us := by
      simpa [conditionTokens, conditionPieces, Piece.word, Piece.tokens, Condition.column] using h
    obtain ⟨hab, hts⟩ := literalTokens_append hrest
    exact ⟨Or.inr ⟨rfl, rfl, hab⟩, hts⟩
  case between.between low high low' high' =>
    simp only [Test.ofCondition, Test.between.injEq, Target.column.injEq] at htest
    cases column_injective htest.1
    have hrest : literalTokens low ++ .word "AND" :: (literalTokens high ++ ts) =
        literalTokens low' ++ .word "AND" :: (literalTokens high' ++ us) := by
      simpa [conditionTokens, conditionPieces, Piece.word, Piece.tokens, Condition.column] using h
    obtain ⟨hlow, hrest⟩ := literalTokens_append hrest
    obtain ⟨hhigh, hts⟩ := literalTokens_append (List.cons.inj hrest).2
    exact ⟨Or.inr ⟨rfl, hlow, hhigh⟩, hts⟩
  case contains.contains pattern pattern' =>
    simp only [Test.ofCondition, Test.ilike.injEq] at htest
    obtain ⟨hf, hpattern, -⟩ := htest
    cases ofField_injective hf
    cases Datum.text.inj hpattern
    exact ⟨Or.inr ⟨rfl, rfl⟩, List.append_cancel_left h⟩
  case member.member ls ls' =>
    cases ls with
    | nil =>
      cases ls' with
      | nil => exact ⟨Or.inl ⟨rfl, rfl⟩, (List.cons.inj h).2⟩
      | cons b ls' => cases htest
    | cons a ls =>
      cases ls' with
      | nil => cases htest
      | cons b ls' =>
        simp only [Test.ofCondition, Test.member.injEq, Target.column.injEq] at htest
        cases column_injective htest.1
        -- The test says how many operands there are, so both lists are taken apart in step.
        have hlen : ls.length = ls'.length := by
          simpa using congrArg List.length htest.2
        have hrest : literalTokens a ++ ((ls.flatMap fun l => .sign ',' :: literalTokens l) ++
              .sign ')' :: ts) =
            literalTokens b ++ ((ls'.flatMap fun l => .sign ',' :: literalTokens l) ++
              .sign ')' :: us) := by
          simpa [conditionTokens, conditionPieces, Piece.listed, Piece.word, Piece.sign,
            Piece.tokens, Condition.column, List.flatMap_assoc, List.flatMap_map] using h
        obtain ⟨hab, hrest⟩ := literalTokens_append hrest
        obtain ⟨hls, hts⟩ := listed_append hlen hrest
        exact ⟨Or.inr ⟨rfl, .cons hab hls⟩, (List.cons.inj hts).2⟩
  case compare.member ls | between.member ls | contains.member ls => cases ls <;> cases htest
  case member.compare ls _ _ | member.between ls _ _ | member.contains ls _ =>
    cases ls <;> cases htest
  all_goals cases htest

theorem conditions_append {cs ds : List Condition}
    (htests : cs.map (Test.ofCondition .ofText) = ds.map (Test.ofCondition .ofText))
    {ts us : List Token}
    (h : (cs.flatMap fun c => .word "AND" :: conditionTokens c) ++ ts =
      (ds.flatMap fun c => .word "AND" :: conditionTokens c) ++ us) :
    List.Forall₂ ConditionAlike cs ds ∧ ts = us := by
  induction cs generalizing ds with
  | nil =>
    rw [List.map_eq_nil_iff.mp htests.symm] at h ⊢
    exact ⟨.nil, h⟩
  | cons c cs ih =>
    obtain ⟨d, ds, rfl, htest, hmore⟩ := List.map_eq_cons_iff.mp htests.symm
    simp only [List.flatMap_cons, List.cons_append, List.cons.injEq, true_and,
      List.append_assoc] at h
    obtain ⟨hcd, hrest⟩ := conditionTokens_append htest.symm h
    obtain ⟨hcs, hts⟩ := ih hmore.symm hrest
    exact ⟨.cons hcd hcs, hts⟩

theorem map_condition_eq {cs ds : List Condition} (h : List.Forall₂ ConditionAlike cs ds) :
    cs.map condition = ds.map condition := by
  induction h with
  | nil => rfl
  | cons hcd _ ih => rw [List.map_cons, List.map_cons, hcd.condition_eq, ih]

theorem audit_eq_of_alike {p p' : Plan} (h : PlanAlike p p') : audit p = audit p' := by
  rw [audit, audit, map_condition_eq h.1, h.2.1, h.2.2]

theorem wherePieces_append {cs ds : List Condition}
    (htests : cs.map (Test.ofCondition .ofText) = ds.map (Test.ofCondition .ofText))
    {ts us : List Token}
    (h : (wherePieces cs).flatMap (Piece.tokens literalTokens) ++ ts =
      (wherePieces ds).flatMap (Piece.tokens literalTokens) ++ us) :
    List.Forall₂ ConditionAlike cs ds := by
  cases cs with
  | nil =>
    rw [List.map_eq_nil_iff.mp htests.symm]
    exact .nil
  | cons c cs =>
    obtain ⟨d, ds, rfl, htest, hmore⟩ := List.map_eq_cons_iff.mp htests.symm
    have htokens : ∀ (c : Condition) (cs : List Condition),
        (wherePieces (c :: cs)).flatMap (Piece.tokens literalTokens) =
          .word "WHERE" :: (conditionTokens c ++
            cs.flatMap fun c => .word "AND" :: conditionTokens c) := by
      intro c cs
      simp [wherePieces, Piece.word, Piece.tokens, List.flatMap_assoc, conditionTokens]
    simp only [htokens, List.cons_append, List.cons.injEq, true_and, List.append_assoc] at h
    obtain ⟨hcd, hrest⟩ := conditionTokens_append htest.symm h
    exact .cons hcd (conditions_append hmore.symm hrest).1

theorem alike_of_audit_eq {p p' : Plan} (h : audit p = audit p') : PlanAlike p p' := by
  have hread : Statement.ofPlan .ofText none p = Statement.ofPlan .ofText none p' := by
    have hp := ofBound?_audit p
    rw [h, ofBound?_audit p'] at hp
    exact (Option.some.inj hp).symm
  have htokens : (planPieces starPieces p).flatMap (Piece.tokens literalTokens) =
      (planPieces starPieces p').flatMap (Piece.tokens literalTokens) := by
    have hp := (lexed_audit p).ofText?_eq
    rw [h, (lexed_audit p').ofText?_eq] at hp
    exact (Option.some.inj hp).symm
  have horder : p.order = p'.order := by
    have hinj : Function.Injective fun (k : Field × Direction) => (k.1.column, k.2) := by
      rintro ⟨f, d⟩ ⟨g, e⟩ he
      obtain ⟨hf, hd⟩ := Prod.mk.inj he
      exact congrArg₂ Prod.mk (column_injective hf) hd
    exact Option.map_injective hinj (congrArg Statement.order hread)
  have hlimit : p.limit = p'.limit := Option.some.inj (congrArg Statement.limit hread)
  refine ⟨?_, horder, hlimit⟩
  simp only [planPieces, List.cons_append, List.append_assoc, List.flatMap_cons,
    List.flatMap_append, List.append_cancel_left_eq] at htokens
  exact wherePieces_append (congrArg Statement.tests hread) htokens

/-- What is shown holds its texts in literals that nothing of them escapes from, and is the same for
two queries just if their plans are alike. -/
theorem sql_unambiguous :
    (∀ q : Query, ∃ outside ts,
      scan none q.sql.toList = some ((Plan.ofQuery q).conditions.flatMap stringsOf, outside) ∧
        Token.ofText? (String.ofList outside) = some ts ∧ ∀ t ∈ ts, t.Outside) ∧
    ∀ q q' : Query, q.sql = q'.sql ↔ PlanAlike (.ofQuery q) (.ofQuery q') :=
  ⟨scan_sql, fun _ _ => ⟨alike_of_audit_eq, audit_eq_of_alike⟩⟩

end Screener.Sql
