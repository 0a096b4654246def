import Screener.Proofs.Query.Volumes

namespace Screener

namespace Text

theorem dropBlank_eq_self {cs : List Char} (h : ∀ c ∈ cs, isBlank c = false) :
    dropBlank cs = cs := by
  cases cs with
  | nil => rfl
  | cons c cs => simp [dropBlank, h c List.mem_cons_self]

theorem trimChars_eq_self {cs : List Char} (h : ∀ c ∈ cs, isBlank c = false) :
    trimChars cs = cs := by
  have hreverse : ∀ c ∈ cs.reverse, isBlank c = false := by simpa using h
  rw [trimChars, dropBlank_eq_self h, dropBlank_eq_self hreverse, List.reverse_reverse]

end Text

theorem not_isBlank_of_mem_writeInt {n : ℤ} {c : Char} (h : c ∈ Json.writeInt n) :
    Text.isBlank c = false := by
  have hdigit : c ∈ digitsOf n.natAbs → Text.isBlank c = false := fun hc =>
    Text.isBlank_of_isDigit (isDigit_of_mem_digitsOf hc)
  rw [Json.writeInt] at h
  split at h
  · rcases List.mem_cons.mp h with rfl | h
    · decide
    · exact hdigit h
  · exact hdigit h

theorem read?_writeInt (n : ℤ) :
    (Numeral.read? (Json.writeInt n) : Option Double) = Binary.ofInt? n := by
  have hdecimal := Numeral.decimal?_whole (n < 0) (digitsOf_ne_nil n.natAbs)
    fun _ => isDigit_of_mem_digitsOf
  rw [writeInt_eq, Numeral.read?_of_decimal? hdecimal, Binary.ofInt?_eq_ofValue?,
    natOfDigits_digitsOf, Decimal.value, zpow_zero, mul_one]

theorem toString_toInt (n : Int64) : toString n.toInt = intText n := by
  rw [intText, Json.writeInt]
  generalize n.toInt = k
  cases k with
  | ofNat m => rfl
  | negSucc m =>
    rw [if_pos (Int.negSucc_lt_zero m), String.ofList_cons]
    rfl

/-- Values that are the same, or one of some numbers and the string of its digits. -/
inductive Json.WrittenOut (p : Int64 → Prop) : Json → Json → Prop
  | same (v : Json) : WrittenOut p v v
  | number {n : Int64} (hn : p n) : WrittenOut p (.int n.toInt) (.string (toString n.toInt))

/-- Operands that are the same but for some numbers, which one of them holds as strings. -/
inductive OperandWrittenOut (p : Int64 → Prop) : Json → Json → Prop
  | scalar {v w : Json} (h : v.WrittenOut p w) : OperandWrittenOut p v w
  | array {vs ws : List Json} (h : List.Forall₂ (Json.WrittenOut p) vs ws) :
      OperandWrittenOut p (.array vs) (.array ws)

/-- A volume among the rows that is rounded to the double of one of some numbers is the number. -/
def VolumesApart (p : Int64 → Prop) (rows : List Record) : Prop :=
  ∀ r ∈ rows, ∀ m, r.volume = some m → ∀ n, p n → Binary.Merges m.toInt n.toInt → m = n

namespace Literal

inductive WrittenOut (p : Int64 → Prop) : Literal → Literal → Prop
  | same (l : Literal) : WrittenOut p l l
  | number {n : Int64} (hn : p n) : WrittenOut p (.int n) (.text (intText n))

variable {p : Int64 → Prop}

theorem ofNumeral_intText {n : Int64} {x : Double} (hx : Binary.ofInt? n.toInt = some x) :
    ofNumeral (intText n) = .float x := by
  have hread : (Numeral.read? (Text.trimChars (intText n).toList) : Option Double) = some x := by
    rw [intText, String.toList_ofList, Text.trimChars_eq_self fun _ => not_isBlank_of_mem_writeInt,
      read?_writeInt, hx]
  rw [ofNumeral, hread]

/-- The volume compares with the string of a number as with the number, unless rounding merges the
two: then they are level. -/
theorem satisfies_intText (m n : Int64) (c : Comparison) :
    (Literal.int m).satisfies c (ofNumeral (intText n)) =
      c.admits (if Binary.Merges m.toInt n.toInt then .eq else compare m.toInt n.toInt) := by
  obtain ⟨x, hx⟩ := Binary.ofInt?_isSome n
  rw [ofNumeral_intText hx, satisfies_rounded hx]

theorem WrittenOut.searchText?_eq {l k : Literal} (h : WrittenOut p l k) :
    l.searchText? = k.searchText? := by
  cases h with
  | same => rfl
  | number => rfl

theorem WrittenOut.satisfies_eq {kind : FieldKind} {v l k : Literal} (h : WrittenOut p l k)
    (hv : v.OfKind kind)
    (happart : ∀ m, v = .int m → ∀ n, p n → Binary.Merges m.toInt n.toInt → m = n)
    (c : Comparison) : v.satisfies c (l.coerce kind) = v.satisfies c (k.coerce kind) := by
  cases h with
  | same => rfl
  | @number n hn =>
    obtain ⟨x, hx⟩ := Binary.ofInt?_isSome n
    -- By the value, which tells the kind unless it is null, and a null compares with nothing.
    cases v with
    | null => rw [satisfies, satisfies, order?_eq_none (.inl rfl), order?_eq_none (.inl rfl)]
    | bool => exact hv.elim
    | text =>
      obtain rfl : kind = .text := hv
      rfl
    | float y =>
      obtain rfl : kind = .number := hv
      show (Literal.float y).satisfies c (.int n) =
        (Literal.float y).satisfies c (ofNumeral (intText n))
      rw [ofNumeral_intText hx, satisfies, order?, hx]
      rfl
    | int m =>
      obtain rfl : kind = .integer := hv
      show (Literal.int m).satisfies c (.int n) =
        (Literal.int m).satisfies c (ofNumeral (intText n))
      rw [satisfies_intText, satisfies, order?, Option.any_some]
      by_cases hmerges : Binary.Merges m.toInt n.toInt
      · rw [if_pos hmerges, happart m rfl n hn hmerges, compare_eq_iff_eq.mpr rfl]
      · rw [if_neg hmerges]

end Literal

theorem Option.all_eq_of_rel {α β : Type} {R : α → β → Prop} {a : Option α} {b : Option β}
    {f : α → Bool} {g : β → Bool} (h : Option.Rel R a b) (hfg : ∀ x y, R x y → f x = g y) :
    a.all f = b.all g := by
  cases h with
  | none => rfl
  | some hxy => exact hfg _ _ hxy

theorem Option.rel_mapM {α β γ δ : Type} {R : α → β → Prop} {S : γ → δ → Prop}
    {f : α → Option γ} {g : β → Option δ} (hfg : ∀ x y, R x y → Option.Rel S (f x) (g y))
    {xs : List α} {ys : List β} (h : List.Forall₂ R xs ys) :
    Option.Rel (List.Forall₂ S) (xs.mapM f) (ys.mapM g) := by
  induction h with
  | nil => exact .some .nil
  | @cons x y xs ys hxy _ ih =>
    have hhead := hfg x y hxy
    rw [List.mapM_cons, List.mapM_cons]
    generalize f x = a, g y = b, xs.mapM f = as, ys.mapM g = bs at hhead ih ⊢
    cases hhead with
    | none => exact .none
    | some hab =>
      cases ih with
      | none => exact .none
      | some hall => exact .some (.cons hab hall)

theorem List.any_eq_of_forall₂ {α β : Type} {R : α → β → Prop} {f : α → Bool} {g : β → Bool}
    {xs : List α} {ys : List β} (h : List.Forall₂ R xs ys) (hfg : ∀ x y, R x y → f x = g y) :
    xs.any f = ys.any g := by
  induction h with
  | nil => rfl
  | cons hxy _ ih => rw [List.any_cons, List.any_cons, hfg _ _ hxy, ih]

theorem volume_of_value {r : Record} {f : Field} {m : Int64} (h : r.value f = .int m) :
    f = .volume ∧ r.volume = some m := by
  have hkind := r.value_ofKind f
  rw [h] at hkind
  obtain rfl : f = .volume := by cases f <;> first | rfl | cases hkind
  rw [Record.value] at h
  cases hv : r.volume with
  | none =>
    rw [hv] at h
    cases h
  | some n =>
    rw [hv] at h
    cases h
    exact ⟨rfl, rfl⟩

section

variable {p : Int64 → Prop}

theorem Json.WrittenOut.rel {v w : Json} (h : v.WrittenOut p w) :
    Option.Rel (Literal.WrittenOut p) (Literal.ofJson? v) (Literal.ofJson? w) := by
  cases h with
  | same v =>
    cases Literal.ofJson? v with
    | none => exact .none
    | some l => exact .some (.same l)
  | @number n hn =>
    rw [Literal.ofJson?_toInt, toString_toInt]
    exact .some (.number hn)

theorem Literal.WrittenOut.satisfies_value_eq {l k : Literal} (h : l.WrittenOut p k) {f : Field}
    {r : Record} (happart : f = .volume → VolumesApart p [r]) (c : Comparison) :
    (r.value f).satisfies c (l.coerce f.kind) = (r.value f).satisfies c (k.coerce f.kind) := by
  refine h.satisfies_eq (r.value_ofKind f) ?_ c
  intro m hm
  obtain ⟨hf, hv⟩ := volume_of_value hm
  exact happart hf r List.mem_cons_self m hv

namespace OperandWrittenOut

variable {v w : Json} (h : OperandWrittenOut p v w) {f : Field} {r : Record}

section

variable (happart : f = .volume → VolumesApart p [r])
include h happart

theorem compare_eq (c : Comparison) : (Operator.compare c).admits f.kind (r.value f) v =
    (Operator.compare c).admits f.kind (r.value f) w := by
  cases h with
  | scalar h => exact Option.all_eq_of_rel h.rel fun _ _ hlk => hlk.satisfies_value_eq happart c
  | array => rfl

theorem between_eq : Operator.between.admits f.kind (r.value f) v =
    Operator.between.admits f.kind (r.value f) w := by
  cases h with
  | scalar h => cases h <;> rfl
  | array h =>
    -- Only of two bounds is anything asked.
    obtain _ | ⟨ha, _ | ⟨hb, _ | _⟩⟩ := h
    case cons.cons.nil a a' b b' =>
      have hlow := ha.rel
      have hhigh := hb.rel
      rw [Operator.admits, Operator.admits]
      generalize Literal.ofJson? a = la, Literal.ofJson? a' = la', Literal.ofJson? b = lb,
        Literal.ofJson? b' = lb' at hlow hhigh ⊢
      cases hlow with
      | none => rfl
      | some hl =>
        cases hhigh with
        | none => rfl
        | some hk =>
          exact congrArg₂ and (hl.satisfies_value_eq happart .gte)
            (hk.satisfies_value_eq happart .lte)
    all_goals rfl

theorem member_eq : Operator.member.admits f.kind (r.value f) v =
    Operator.member.admits f.kind (r.value f) w := by
  cases h with
  | scalar h => cases h <;> rfl
  | @array vs ws h =>
    have hrel : Option.Rel (List.Forall₂ (Literal.WrittenOut p)) (vs.mapM Literal.ofJson?)
        (ws.mapM Literal.ofJson?) := Option.rel_mapM (fun _ _ hvw => hvw.rel) h
    apply Option.all_eq_of_rel hrel
    intro _ _ hall
    exact List.any_eq_of_forall₂ hall fun _ _ hlk => hlk.satisfies_value_eq happart .eq

end

include h

theorem like_eq : Operator.like.admits f.kind (r.value f) v =
    Operator.like.admits f.kind (r.value f) w := by
  cases h with
  | scalar h =>
    have hrel := h.rel
    rw [Operator.admits, Operator.admits]
    generalize Literal.ofJson? v = l, Literal.ofJson? w = k at hrel ⊢
    cases hrel with
    | none => rfl
    | some hlk => rw [Option.bind_some, Option.bind_some, hlk.searchText?_eq]
  | array => rfl

/-- A clause admits the same of a record when its operand is written out, except that it compares
the volume with a number that rounding merges with it. -/
theorem admits_eq {o : Operator} (happart : f = .volume → o ≠ .like → VolumesApart p [r]) :
    (Clause.on f o v).admits r = (Clause.on f o w).admits r := by
  rw [admits_on, admits_on]
  cases o with
  | compare c => exact h.compare_eq (fun hf => happart hf (by simp)) c
  | between => exact h.between_eq fun hf => happart hf (by simp)
  | like => exact h.like_eq
  | member => exact h.member_eq fun hf => happart hf (by simp)

theorem query_eq (f : Field) (o : Operator) {rows : List Record}
    (happart : f = .volume → o ≠ .like → VolumesApart p rows) (before after : List Clause)
    (order : Option SortKey) (limit : UInt32) :
    Catalog.query ⟨before ++ .on f o v :: after, order, limit⟩ ⟨some rows⟩ =
      Catalog.query ⟨before ++ .on f o w :: after, order, limit⟩ ⟨some rows⟩ := by
  refine query_congr_rows order limit ?_
  intro r hr
  have hsame : (Clause.on f o v).admits r = (Clause.on f o w).admits r := by
    apply h.admits_eq
    intro hf ho
    exact List.forall_mem_singleton.mpr (happart hf ho r hr)
  rw [List.all_append, List.all_append, List.all_cons, List.all_cons, hsame]

end OperandWrittenOut

theorem volumesApart_of_small (h : ∀ n, p n → n.toInt.natAbs < 2 ^ 53) (rows : List Record) :
    VolumesApart p rows := by
  intro r _ m _ n hn hmerges
  have hm1 := m.le_toInt
  have hm2 := m.toInt_lt
  exact Int64.toInt_inj.mp (hmerges.eq_of_small (by omega) (h n hn))

/-- The volume is compared with the number itself, but with its string as if all volumes that are
rounded to its double were the number. -/
theorem selects_volume_string {r : Record} {m : Int64} (hv : r.volume = some m) (n : Int64)
    (c : Comparison) : Selects [.on .volume (.compare c) (.string (toString n.toInt))] r ↔
      c.Relates m.toInt (if Binary.Merges m.toInt n.toInt then m.toInt else n.toInt) := by
  have hl : Literal.ofJson? (.string (toString n.toInt)) = some (.text (intText n)) := by
    rw [toString_toInt]
    rfl
  rw [selects_compare hl, value_volume hv]
  show (Literal.int m).satisfies c (Literal.ofNumeral (intText n)) = true ↔ _
  rw [Literal.satisfies_intText]
  split
  · exact c.admits_eq_iff m.toInt
  · exact c.admits_compare_iff m.toInt n.toInt

theorem selects_volume_int {r : Record} {m : Int64} (hv : r.volume = some m) (n : Int64)
    (c : Comparison) :
    Selects [.on .volume (.compare c) (.int n.toInt)] r ↔ c.Relates m.toInt n.toInt := by
  have hwhole : Json.IsWhole n.toInt := ⟨n.le_toInt, n.toInt_lt.trans (by decide)⟩
  have hclear : ¬Blurred m n.toInt := fun h => absurd h.2.1 (not_le.mpr n.toInt_lt)
  exact selects_volume_of_clear hv hwhole hclear c

end

/-- Numbers and the strings of their digits select the same records, by every operator and beside
every field, on their own and in an array among others. Only comparisons of the volume need that no
volume is rounded to the double of a number without being the number, which holds of itself for
numbers below two to the power of 53; with such a volume the number is compared exactly, and the
string as if it were the volume. -/
theorem written_out_alike (p : Int64 → Prop) :
    (∀ v w, OperandWrittenOut p v w → ∀ (f : Field) (o : Operator) (rows : List Record),
      (f = .volume → o ≠ .like → VolumesApart p rows) → ∀ before after order limit,
        Catalog.query ⟨before ++ .on f o v :: after, order, limit⟩ ⟨some rows⟩ =
          Catalog.query ⟨before ++ .on f o w :: after, order, limit⟩ ⟨some rows⟩) ∧
    ((∀ n, p n → n.toInt.natAbs < 2 ^ 53) → ∀ rows, VolumesApart p rows) ∧
    ∀ n, p n → ∀ r m, r.volume = some m → ∀ c : Comparison,
      (Selects [.on .volume (.compare c) (.int n.toInt)] r ↔ c.Relates m.toInt n.toInt) ∧
      (Selects [.on .volume (.compare c) (.string (toString n.toInt))] r ↔
        c.Relates m.toInt (if Binary.Merges m.toInt n.toInt then m.toInt else n.toInt)) := by
  refine ⟨?_, volumesApart_of_small, ?_⟩
  · intro v w h f o rows happart
    exact h.query_eq f o happart
  · intro n _ r m hv c
    exact ⟨selects_volume_int hv n c, selects_volume_string hv n c⟩

theorem written_out_alike_busyRecord :
    (OperandWrittenOut (· = 9007199254740993) (.array [.int 9007199254740993, .null])
        (.array [.string "9007199254740993", .null]) ∧
      VolumesApart (· = 9007199254740993) [busyRecord] ∧
      (∀ n : Int64, n = -5 → n.toInt.natAbs < 2 ^ 53) ∧
      busyRecord.volume = some 9007199254740993) ∧
    (∀ before after order limit,
      Catalog.query ⟨before ++ .on .volume .member (.array [.int 9007199254740993, .null]) ::
        after, order, limit⟩ ⟨some [busyRecord]⟩ =
      Catalog.query ⟨before ++
        .on .volume .member (.array [.string "9007199254740993", .null]) ::
        after, order, limit⟩ ⟨some [busyRecord]⟩) ∧
    VolumesApart (· = -5) [busyRecord] ∧
    ¬Selects [.on .volume (.compare .gt) (.string "9007199254740992")] busyRecord := by
  have hnumber : Json.WrittenOut (· = 9007199254740993) (.int 9007199254740993)
      (.string "9007199254740993") := .number (n := 9007199254740993) rfl
  have hout : OperandWrittenOut (· = 9007199254740993) (.array [.int 9007199254740993, .null])
      (.array [.string "9007199254740993", .null]) := .array (.cons hnumber (.cons (.same _) .nil))
  have hvolume : busyRecord.volume = some 9007199254740993 := rfl
  have happart : VolumesApart (· = 9007199254740993) [busyRecord] := by
    intro r hr m hm n hn _
    rw [List.mem_singleton.mp hr, hvolume, Option.some.injEq] at hm
    rw [hn, hm]
  have hsmall : ∀ n : Int64, n = -5 → n.toInt.natAbs < 2 ^ 53 := by
    rintro n rfl
    decide
  refine ⟨⟨hout, happart, hsmall, hvolume⟩, ?_, ?_, ?_⟩
  · exact (written_out_alike _).1 _ _ hout .volume .member _ fun _ _ => happart
  · exact (written_out_alike _).2.1 hsmall _
  · have hexact := (written_out_alike (· = 9007199254740992)).2.2 9007199254740992 rfl
    have hstring := (hexact busyRecord _ hvolume .gt).2
    exact fun h => absurd (hstring.mp h) (by decide +kernel)

theorem written_out_differs :
    ¬Selects [.on .volume (.compare .eq) (.int 9007199254740992)] busyRecord ∧
      Selects [.on .volume (.compare .eq) (.string "9007199254740992")] busyRecord := by
  have hvolume : busyRecord.volume = some 9007199254740993 := rfl
  have hint := selects_volume_int hvolume 9007199254740992 .eq
  have hstring := selects_volume_string hvolume 9007199254740992 .eq
  exact ⟨fun h => absurd (hint.mp h) (by decide), hstring.mpr (by decide +kernel)⟩

end Screener
