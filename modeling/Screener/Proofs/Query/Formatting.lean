import Screener.Proofs.Json.Coverage
import Screener.Proofs.Query.CanonicalText
import Screener.Proofs.Service

namespace Screener

open Json

/-- What a tree is in a reply. -/
inductive Role where
  | reply
  | filters
  | clause
  | order
  | data

namespace Role

def under : Role → String → Role
  | reply, key => if key = "filters" then filters else if key = "order_by" then order else data
  | filters, _ | clause, _ | order, _ | data, _ => data

def item : Role → Role
  | filters => clause
  | reply | clause | order | data => data

def Ignores : Role → String → Prop
  | reply, key => key ∉ ["filters", "order_by", "limit"]
  | clause, key => key ∉ ["field", "operator", "value"]
  | order, key => key ∉ ["field", "direction"]
  | filters, _ | data, _ => False

instance (p : Role) (key : String) : Decidable (p.Ignores key) := by
  cases p <;> unfold Ignores <;> infer_instance

end Role

def Json.IsClause (v : Json) : Prop :=
  ∃ field operator, v.get? "field" = some (.string field) ∧
    v.get? "operator" = some (.string operator)

/-- The trees differ in their form only. -/
inductive Alike : Role → Tree → Tree → Prop
  | refl (p : Role) (t : Tree) : Alike p t t
  | symm {p : Role} {t u : Tree} (h : Alike p t u) : Alike p u t
  | trans {p : Role} {t u w : Tree} (h : Alike p t u) (h' : Alike p u w) : Alike p t w
  | entry {p : Role} {t u : Tree} (k : Key) (h : Alike (p.under k.name) t u)
      (before after : List (Key × Tree)) :
      Alike p (.object (before ++ (k, t) :: after)) (.object (before ++ (k, u) :: after))
  | item {p : Role} {t u : Tree} (h : Alike p.item t u) (before after : List Tree) :
      Alike p (.array (before ++ t :: after)) (.array (before ++ u :: after))
  /-- Entries with different keys change places. -/
  | swap (p : Role) {k l : Key} (h : k.name ≠ l.name) (t u : Tree)
      (before after : List (Key × Tree)) :
      Alike p (.object (before ++ (k, t) :: (l, u) :: after))
        (.object (before ++ (l, u) :: (k, t) :: after))
  /-- An entry is added that is not looked at. -/
  | extra {p : Role} {k : Key} (h : p.Ignores k.name) (t : Tree)
      (before after : List (Key × Tree)) :
      Alike p (.object (before ++ after)) (.object (before ++ (k, t) :: after))
  /-- An item is added to the filters that is no clause. -/
  | idle {t : Tree} (h : ¬t.value.IsClause) (before after : List Tree) :
      Alike .filters (.array (before ++ after)) (.array (before ++ t :: after))

/-- The clauses that a value under `filters` stands for. -/
def Query.clausesOf (v : Json) : List Clause := (v.items?.getD []).filterMap Clause.ofJson?

/-- The values stand for the same in a role. -/
def Role.Same : Role → Json → Json → Prop
  | reply, v, w => Query.ofJson v = Query.ofJson w
  | filters, v, w => Query.clausesOf v = Query.clausesOf w
  | clause, v, w => Clause.ofJson? v = Clause.ofJson? w
  | order, v, w => SortKey.ofJson? v = SortKey.ofJson? w
  | data, v, w => v = w

namespace Role

theorem Same.of_eq (p : Role) {v w : Json} (h : v = w) : p.Same v w := by
  subst h
  cases p <;> rfl

theorem Same.symm {p : Role} {v w : Json} (h : p.Same v w) : p.Same w v := by
  cases p <;> exact Eq.symm h

theorem Same.trans {p : Role} {v w x : Json} (h : p.Same v w) (h' : p.Same w x) : p.Same v x := by
  cases p <;> exact Eq.trans h h'

end Role

theorem Query.clauses_ofJson_eq (v : Json) :
    (Query.ofJson v).clauses = ((v.get? "filters").map clausesOf).getD [] := by
  show (((v.get? "filters").bind Json.items?).getD []).filterMap Clause.ofJson? = _
  cases v.get? "filters" with
  | none => rfl
  | some w => rfl

theorem Query.ofJson_congr {v w : Json}
    (hfilters : (v.get? "filters").map clausesOf = (w.get? "filters").map clausesOf)
    (horder : (v.get? "order_by").map SortKey.ofJson? = (w.get? "order_by").map SortKey.ofJson?)
    (hlimit : v.get? "limit" = w.get? "limit") : Query.ofJson v = Query.ofJson w := by
  have hclauses : (Query.ofJson v).clauses = (Query.ofJson w).clauses := by
    rw [clauses_ofJson_eq, clauses_ofJson_eq, hfilters]
  have hkey : (Query.ofJson v).order = (Query.ofJson w).order := by
    have hbind : ∀ found : Option Json, found.bind SortKey.ofJson? =
        (found.map SortKey.ofJson?).bind id := fun found => by cases found <;> rfl
    show (v.get? "order_by").bind SortKey.ofJson? = (w.get? "order_by").bind SortKey.ofJson?
    rw [hbind, hbind, horder]
  have hcount : (Query.ofJson v).limit = (Query.ofJson w).limit := by
    show UInt32.ofNat (((v.get? "limit").bind limitOfJson?).getD defaultLimit) = _
    rw [hlimit]
    rfl
  exact Query.eq_of_parts hclauses hkey hcount

theorem Option.map_eq_of_rel {α β : Type} {R : α → α → Prop} {f : α → β} {a b : Option α}
    (h : Option.Rel R a b) (hf : ∀ {v w}, R v w → f v = f w) : a.map f = b.map f := by
  cases h with
  | some h => exact congrArg some (hf h)
  | none => rfl

theorem Option.rel_or_middle {α : Type} {R : α → α → Prop} (hR : ∀ a, R a a) {a b : α}
    (h : R a b) (front back : Option α) :
    Option.Rel R ((front.or (some a)).or back) ((front.or (some b)).or back) := by
  cases front with
  | none => exact .some h
  | some c => exact .some (hR c)

theorem Option.rel_refl {α : Type} {R : α → α → Prop} (hR : ∀ a, R a a) (a : Option α) :
    Option.Rel R a a := by
  cases a with
  | none => exact .none
  | some a => exact .some (hR a)

/-- Nothing is under a key in either, or the same is. -/
def Role.SameUnder (p : Role) (key : String) (v w : Json) : Prop :=
  Option.Rel (p.under key).Same (v.get? key) (w.get? key)

theorem Role.SameUnder.data {p : Role} {key : String} {v w : Json} (h : p.SameUnder key v w)
    (hkey : p.under key = .data) : v.get? key = w.get? key := by
  rw [SameUnder, hkey] at h
  have hmap := Option.map_eq_of_rel (f := id) h id
  rwa [Option.map_id, id, id] at hmap

def Role.LooksUp : Role → Prop
  | reply | clause | order => True
  | filters | data => False

theorem Role.of_not_looksUp {p : Role} (h : ¬p.LooksUp) (key : String) :
    p.under key = .data ∧ ¬p.Ignores key := by
  cases p with
  | filters => exact ⟨rfl, id⟩
  | data => exact ⟨rfl, id⟩
  | reply | clause | order => exact absurd trivial h

/-- Where objects are looked into, only what is under keys that are not ignored counts. -/
theorem Role.same_of_under {p : Role} (hp : p.LooksUp) {v w : Json}
    (h : ∀ key, ¬p.Ignores key → p.SameUnder key v w) : p.Same v w := by
  cases p with
  | reply =>
    have hfilters := Option.map_eq_of_rel (f := Query.clausesOf) (h "filters" (by decide)) id
    have horder := Option.map_eq_of_rel (f := SortKey.ofJson?) (h "order_by" (by decide)) id
    exact Query.ofJson_congr hfilters horder ((h "limit" (by decide)).data rfl)
  | clause =>
    have hfield := (h "field" (by decide)).data rfl
    have hoperator := (h "operator" (by decide)).data rfl
    have hvalue := (h "value" (by decide)).data rfl
    show Clause.ofJson? v = Clause.ofJson? w
    rw [Clause.ofJson?, Clause.ofJson?, hfield, hoperator, hvalue]
  | order =>
    have hfield := (h "field" (by decide)).data rfl
    have hdirection := (h "direction" (by decide)).data rfl
    show SortKey.ofJson? v = SortKey.ofJson? w
    rw [SortKey.ofJson?, SortKey.ofJson?, hfield, hdirection]
  | filters => exact hp.elim
  | data => exact hp.elim

theorem Query.clausesOf_middle (v : Json) (before after : List Json) :
    clausesOf (.array (before ++ v :: after)) =
      before.filterMap Clause.ofJson? ++ ((Clause.ofJson? v).toList ++
        after.filterMap Clause.ofJson?) := by
  show (before ++ v :: after).filterMap Clause.ofJson? = _
  rw [List.filterMap_append, List.filterMap_cons]
  cases Clause.ofJson? v <;> rfl

theorem Clause.ofJson?_of_not_isClause {v : Json} (h : ¬v.IsClause) : ofJson? v = none := by
  by_contra hne
  obtain ⟨c, hc⟩ := Option.ne_none_iff_exists'.mp hne
  obtain ⟨field, hfield, hrest⟩ := Option.bind_eq_some_iff.mp hc
  obtain ⟨operator, hoperator, -⟩ := Option.bind_eq_some_iff.mp hrest
  have htext : ∀ {key s}, (v.get? key).bind Json.string? = some s →
      v.get? key = some (.string s) := by
    intro key s hs
    obtain ⟨w, hw, hstring⟩ := Option.bind_eq_some_iff.mp hs
    cases w with
    | string => rw [hw, Option.some.inj hstring]
    | _ => cases hstring
  exact h ⟨field, operator, htext hfield, htext hoperator⟩

theorem Alike.same {p : Role} {t u : Tree} (h : Alike p t u) : p.Same t.value u.value := by
  -- On the steps. Where a tree is taken as it is, its parts are too, and have one value.
  induction h with
  | refl p t => exact .of_eq p rfl
  | symm _ ih => exact ih.symm
  | trans _ _ ih ih' => exact ih.trans ih'
  | @entry p t u k _ before after ih =>
    simp only [Tree.value, Tree.entryValues_append, Tree.entryValues]
    by_cases hp : p.LooksUp
    · refine Role.same_of_under hp fun key _ => ?_
      rw [Role.SameUnder, get?_ofEntries_middle, get?_ofEntries_middle]
      by_cases hk : k.name = key
      · subst hk
        rw [if_pos rfl, if_pos rfl]
        exact Option.rel_or_middle (fun _ => .of_eq _ rfl) ih _ _
      · rw [if_neg hk, if_neg hk]
        exact Option.rel_refl (fun _ => .of_eq _ rfl) _
    · rw [(Role.of_not_looksUp hp k.name).1] at ih
      exact .of_eq p (by rw [show t.value = u.value from ih])
  | @item p t u _ before after ih =>
    simp only [Tree.value, Tree.values_append, Tree.values]
    by_cases hp : p = .filters
    · subst hp
      show Query.clausesOf _ = Query.clausesOf _
      rw [Query.clausesOf_middle, Query.clausesOf_middle,
        show Clause.ofJson? t.value = Clause.ofJson? u.value from ih]
    · have hdata : p.item = .data := by
        cases p <;> first | rfl | exact absurd rfl hp
      rw [hdata] at ih
      exact .of_eq p (by rw [show t.value = u.value from ih])
  | @swap p k l h t u before after =>
    simp only [Tree.value, Tree.entryValues_append, Tree.entryValues]
    exact .of_eq p (ofEntries_swap h ..)
  | @extra p k h t before after =>
    simp only [Tree.value, Tree.entryValues_append, Tree.entryValues]
    by_cases hp : p.LooksUp
    · refine Role.same_of_under hp fun key hkey => ?_
      have hk : k.name ≠ key := fun he => hkey (he ▸ h)
      rw [Role.SameUnder, get?_ofEntries_middle, get?_ofEntries_append, if_neg hk, Option.or_none]
      exact Option.rel_refl (fun _ => .of_eq _ rfl) _
    · exact absurd h (Role.of_not_looksUp hp k.name).2
  | @idle t h before after =>
    simp only [Tree.value, Tree.values_append, Tree.values]
    show Query.clausesOf _ = Query.clausesOf _
    rw [Query.clausesOf_middle, Clause.ofJson?_of_not_isClause h]
    exact List.filterMap_append

namespace Model

/-- Every reply that is read is a text of a tree, and holds the query that the tree stands for. If
two replies differ in the space between their tokens, in the order of different keys of any object,
in keys that are not looked at, and in filters that are no clauses, but in nothing else, then they
hold one query, with one fingerprint, one statement as it is shown and as it is run, and one
answer. -/
theorem readReply_alike :
    (∀ reply q, readReply reply = .ok q →
      ∃ t, Spells t reply.toList ∧ q = Query.ofJson t.value) ∧
    ∀ t t' reply reply' q q', Alike .reply t t' → Spells t reply.toList → Spells t' reply'.toList →
      readReply reply = .ok q → readReply reply' = .ok q' →
      q = q' ∧ q.fingerprint = q'.fingerprint ∧ q.sql = q'.sql ∧
      Sql.native (.ofQuery q) = Sql.native (.ofQuery q') ∧
      ∀ task c, (Service.Answer.reply reply).query >>= Service.execute task c =
        (Service.Answer.reply reply').query >>= Service.execute task c := by
  refine ⟨fun reply q h => ?_, fun t t' reply reply' q q' ht hs hs' h h' => ?_⟩
  · obtain ⟨v, hv, -, rfl⟩ := readReply_eq_ok h
    obtain ⟨t, hs, rfl⟩ := exists_spells hv
    exact ⟨t, hs, rfl⟩
  · obtain ⟨v, hv, -, rfl⟩ := readReply_eq_ok h
    obtain ⟨v', hv', -, rfl⟩ := readReply_eq_ok h'
    obtain rfl := hs.ofText_eq hv
    obtain rfl := hs'.ofText_eq hv'
    have hq : Query.ofJson t.value = Query.ofJson t'.value := ht.same
    rw [hq] at h ⊢
    refine ⟨rfl, rfl, rfl, rfl, fun task c => ?_⟩
    rw [Service.Answer.query, Service.Answer.query, h, h']

def textTree (s : String) : Tree := .atom (ReadsScalar.atom (reads_string s))

def wholeTree (n : ℤ) (h : IsWhole n) : Tree := .atom (ReadsScalar.atom (reads_int h))

def sectorTree (operand : Tree) : Tree :=
  .object [(.named "field", textTree "sector"), (.named "operator", textTree "eq"),
    (.named "value", operand)]

def zeroEntry : Key × Tree := (.named "a", wholeTree 0 (by decide))

def oneEntry : Key × Tree := (.named "b", wholeTree 1 (by decide))

def tidyTree : Tree :=
  .object [(.named "filters", .array [sectorTree (.object [zeroEntry, oneEntry]), zeroEntry.2])]

/-- The clause with the keys of its operand in the other order, and a note. -/
def turnedTree : Tree :=
  .object [(.named "note", textTree "x"),
    (.named "filters", .array [sectorTree (.object [oneEntry, zeroEntry])])]

def tidyReply : String := "\x7b\"filters\":[\x7b\"field\":\"sector\",\"operator\":\"eq\"," ++
  "\"value\":\x7b\"a\":0,\"b\":1\x7d\x7d,0]\x7d"

def turnedReply : String := "\x7b \"note\":\"x\",\"filters\" :[\x7b\"field\":\"sector\"," ++
  "\"operator\":\"eq\",\"value\":\x7b\"b\":1,\"a\":0\x7d\x7d]\n\x7d"

def sectorQuery : Query where
  clauses := [⟨"sector", "eq", .object [("a", .int 0), ("b", .int 1)]⟩]
  order := none
  limit := 100

theorem alike_turned : Alike .reply tidyTree turnedTree := by
  have hoperand : Alike (Role.clause.under "value") (.object [zeroEntry, oneEntry])
      (.object [oneEntry, zeroEntry]) := .swap _ (by decide) _ _ [] []
  have hclause : Alike Role.filters.item (sectorTree (.object [zeroEntry, oneEntry]))
      (sectorTree (.object [oneEntry, zeroEntry])) :=
    @Alike.entry .clause _ _ (.named "value") hoperand [_, _] []
  have hidle : ¬zeroEntry.2.value.IsClause := by
    rintro ⟨field, operator, hfield, -⟩
    cases hfield
  have hfilters : Alike (Role.reply.under "filters")
      (.array [sectorTree (.object [zeroEntry, oneEntry]), zeroEntry.2])
      (.array [sectorTree (.object [oneEntry, zeroEntry])]) :=
    (Alike.item hclause [] [zeroEntry.2]).trans (Alike.idle hidle [_] []).symm
  have hreply := @Alike.entry .reply _ _ (.named "filters") hfilters [] []
  have hnote : Role.reply.Ignores (Key.named "note").name := by decide
  exact hreply.trans (.extra hnote (textTree "x") [] [_])

theorem spells_tidyReply : Spells tidyTree tidyReply.toList := spells_compact tidyTree

theorem spells_turnedReply : Spells turnedTree turnedReply.toList := by
  have hspace : Blank [' '] ∧ Blank ['\n'] := ⟨blank_singleton rfl, blank_singleton rfl⟩
  have hspells := Spells.object blank_nil
    [⟨[' '], .named "note", [], textTree "x", (textTree "x").compact⟩,
      ⟨[], .named "filters", [' '], .array [sectorTree (.object [oneEntry, zeroEntry])],
        [] ++ ((Tree.array [sectorTree (.object [oneEntry, zeroEntry])]).compact ++ ['\n'])⟩]
    (by simp [hspace.1, blank_nil])
    (List.forall_mem_cons.mpr ⟨spells_compact _, List.forall_mem_singleton.mpr
      (.spaced blank_nil hspace.2 (spells_compact _))⟩)
  exact hspells

theorem readReply_alike_turned :
    (Alike .reply tidyTree turnedTree ∧ Spells tidyTree tidyReply.toList ∧
      Spells turnedTree turnedReply.toList ∧ readReply tidyReply = .ok sectorQuery ∧
      readReply turnedReply = .ok sectorQuery) ∧
    tidyReply ≠ turnedReply ∧
    ∀ task c, (Service.Answer.reply tidyReply).query >>= Service.execute task c =
      (Service.Answer.reply turnedReply).query >>= Service.execute task c := by
  have htidy : readReply tidyReply = .ok sectorQuery := by rfl
  have hturned : readReply turnedReply = .ok sectorQuery := by rfl
  have h := readReply_alike.2 tidyTree turnedTree tidyReply turnedReply sectorQuery sectorQuery
    alike_turned spells_tidyReply spells_turnedReply htidy hturned
  exact ⟨⟨alike_turned, spells_tidyReply, spells_turnedReply, htidy, hturned⟩, by decide,
    h.2.2.2.2⟩

end Model

end Screener
