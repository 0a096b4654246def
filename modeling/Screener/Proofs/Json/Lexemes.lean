import Mathlib.Data.List.DropRight
import Mathlib.Data.List.TakeWhile
import Screener.Proofs.Json.Documents

namespace Screener.Json

theorem spanDigits_eq {cs ds rest : List Char} (h : spanDigits cs = (ds, rest)) :
    cs = ds ++ rest ∧ ∀ c ∈ ds, isDigit c = true := by
  rw [spanDigits, List.span_eq_takeWhile_dropWhile, Prod.mk.injEq] at h
  obtain ⟨rfl, rfl⟩ := h
  exact ⟨List.takeWhile_append_dropWhile.symm, fun c hc => List.mem_takeWhile_imp hc⟩

theorem readWord_eq {word cs rest : List Char} (h : readWord word cs = .ok rest) :
    cs = word ++ rest := by
  fun_induction readWord word cs with
  | case1 cs =>
    cases h
    rfl
  | case2 => cases h
  | case3 w ws cs ih => rw [ih h, List.cons_append]
  | case4 => cases h

theorem readWord_append (word more : List Char) : readWord word (word ++ more) = .ok more := by
  induction word with
  | nil => rfl
  | cons w word ih => rw [List.cons_append, readWord, if_pos rfl, ih]

theorem Option.length_of_mapM {α β : Type} {f : α → Option β} {as : List α} {bs : List β}
    (h : as.mapM f = some bs) : bs.length = as.length := by
  induction as generalizing bs with
  | nil =>
    cases h
    rfl
  | cons a as ih =>
    rw [List.mapM_cons] at h
    obtain ⟨b, -, h⟩ := Option.bind_eq_some_iff.mp h
    obtain ⟨bs, hbs, h⟩ := Option.bind_eq_some_iff.mp h
    cases h
    rw [List.length_cons, List.length_cons, ih hbs]

theorem length_le_byteLength (cs : List Char) : cs.length ≤ byteLength cs := by
  induction cs with
  | nil => exact le_rfl
  | cons c cs ih =>
    have := c.utf8Size_pos
    rw [List.length_cons, byteLength]
    omega

theorem readHex_eq {cs rest : List Char} {n : ℕ} (h : readHex cs = .ok (n, rest)) :
    ∃ used, cs = used ++ rest ∧ ∀ more, readHex (used ++ more) = .ok (n, more) := by
  rw [readHex] at h
  split at h
  · cases h
  split at h
  · rename_i a b c d hvalues
    cases h
    have hlen : (cs.take 4).length = 4 := (Option.length_of_mapM hvalues).symm
    refine ⟨cs.take 4, (List.take_append_drop 4 cs).symm, fun more => ?_⟩
    have hbytes : ¬ byteLength (cs.take 4 ++ more) < 4 := by
      have := length_le_byteLength (cs.take 4)
      rw [byteLength_append]
      omega
    rw [readHex, if_neg hbytes, List.take_left' hlen, List.drop_left' hlen, hvalues]
  · cases h

theorem expectInSurrogate_eq {mark : Char} {cs rest : List Char}
    (h : expectInSurrogate mark cs = .ok rest) : cs = mark :: rest := by
  unfold expectInSurrogate at h
  split at h
  · cases h
  · split at h
    · rename_i hc
      cases h
      rw [hc]
    · cases h

theorem readCode_eq {cs rest : List Char} {c : Char} (h : readCode cs = .ok (c, rest)) :
    ∃ used, cs = used ++ rest ∧ ∀ more, readCode (used ++ more) = .ok (c, more) := by
  rw [readCode] at h
  obtain ⟨⟨high, cs⟩, hhigh, hbehind⟩ := Except.bind_eq_ok h
  obtain ⟨used, rfl, hused⟩ := readHex_eq hhigh
  dsimp only at hbehind
  split_ifs at hbehind with hlone hplain
  · cases hbehind
    refine ⟨used, rfl, fun more => ?_⟩
    simp only [readCode, hused, bind, Except.bind, if_neg hlone, if_pos hplain]
  · -- The second of a pair of surrogates is written as the first one is.
    obtain ⟨cs, hslash, hmark⟩ := Except.bind_eq_ok hbehind
    obtain ⟨cs, hu, hsecond⟩ := Except.bind_eq_ok hmark
    obtain ⟨⟨low, cs⟩, hlow, hpair⟩ := Except.bind_eq_ok hsecond
    obtain ⟨used', rfl, hused'⟩ := readHex_eq hlow
    obtain rfl := expectInSurrogate_eq hslash
    obtain rfl := expectInSurrogate_eq hu
    split_ifs at hpair with hout
    obtain ⟨rfl, rfl⟩ := Prod.mk.inj (Except.ok.inj hpair)
    refine ⟨used ++ '\\' :: 'u' :: used', by simp, fun more => ?_⟩
    rw [List.append_assoc, List.cons_append, List.cons_append]
    simp only [readCode, hused, bind, Except.bind, if_neg hlone, if_neg hplain, expectInSurrogate,
      if_true, hused', if_neg hout]

/-- `front` is one round of reading a string, and stands for one character. -/
def Round (front : List Char) (c : Char) : Prop :=
  front ≠ [] ∧ ∀ fuel {cs body rest}, readChars fuel cs = .ok (body, rest) →
    readChars (fuel + 1) (front ++ cs) = .ok (c :: body, rest)

theorem readChars_cases {fuel : ℕ} {cs body rest : List Char}
    (h : readChars (fuel + 1) cs = .ok (body, rest)) :
    (body = [] ∧ cs = '"' :: rest) ∨
    ∃ front c behind tail, Round front c ∧ cs = front ++ behind ∧ body = c :: tail ∧
      readChars fuel behind = .ok (tail, rest) := by
  -- A round takes a code, a letter behind a backslash, or a character that stands for itself.
  rw [readChars.eq_def] at h
  dsimp only at h
  split at h
  · cases h
  · cases h
    exact .inl ⟨rfl, rfl⟩
  · cases h
  · rename_i cs
    obtain ⟨⟨c, cs⟩, hcode, hbehind⟩ := Except.bind_eq_ok h
    obtain ⟨⟨tail, cs⟩, htail, hbehind⟩ := Except.bind_eq_ok hbehind
    cases hbehind
    obtain ⟨used, rfl, hused⟩ := readCode_eq hcode
    refine .inr ⟨'\\' :: 'u' :: used, c, _, tail, ⟨List.cons_ne_nil _ _, ?_⟩, rfl, rfl, htail⟩
    intro fuel cs body rest hread
    simp only [List.cons_append, readChars, hused, hread, bind, Except.bind]
  · rename_i e cs hu
    split at h
    · rename_i c hc
      obtain ⟨⟨tail, _⟩, htail, hbehind⟩ := Except.bind_eq_ok h
      cases hbehind
      refine .inr ⟨['\\', e], c, cs, tail, ⟨List.cons_ne_nil _ _, ?_⟩, rfl, rfl, htail⟩
      intro fuel cs body rest hread
      simp only [List.cons_append, List.nil_append, readChars, hc, hread, bind, Except.bind]
    · cases h
  · rename_i c cs hquote hslash hu he
    split at h
    · cases h
    · rename_i hcontrol
      obtain ⟨⟨tail, _⟩, htail, hbehind⟩ := Except.bind_eq_ok h
      cases hbehind
      have hmark : c ≠ '\\' := by
        rintro rfl
        cases cs with
        | nil => exact hslash rfl rfl
        | cons e cs => exact he e cs rfl rfl
      refine .inr ⟨[c], c, cs, tail, ⟨List.cons_ne_nil _ _, ?_⟩, rfl, rfl, htail⟩
      intro fuel cs body rest hread
      rw [List.singleton_append, readChars]
      · simp only [if_neg hcontrol, hread, bind, Except.bind]
      all_goals simp_all

/-- Each round takes at least one character, so fuel for each character that is taken is enough. -/
theorem readChars_eq {fuel : ℕ} {cs body rest : List Char}
    (h : readChars fuel cs = .ok (body, rest)) : ∃ used, cs = used ++ rest ∧
      ∀ more fuel, used.length ≤ fuel → readChars fuel (used ++ more) = .ok (body, more) := by
  induction fuel generalizing cs body with
  | zero => cases h
  | succ fuel ih =>
    obtain ⟨rfl, rfl⟩ | ⟨front, c, behind, tail, ⟨hne, hround⟩, rfl, rfl, htail⟩ :=
      readChars_cases h
    · refine ⟨['"'], rfl, fun more fuel hfuel => ?_⟩
      obtain ⟨fuel, rfl⟩ := Nat.exists_eq_add_of_le' hfuel
      rfl
    · obtain ⟨used, rfl, hused⟩ := ih htail
      refine ⟨front ++ used, (List.append_assoc ..).symm, fun more fuel hfuel => ?_⟩
      have hpos := List.length_pos_iff.mpr hne
      rw [List.length_append] at hfuel
      obtain ⟨fuel, rfl⟩ : ∃ n, fuel = n + 1 := ⟨fuel - 1, by omega⟩
      rw [List.append_assoc]
      exact hround fuel (hused more fuel (by omega))

theorem readString_eq {cs rest : List Char} {s : String} (h : readString cs = .ok (s, rest)) :
    ∃ used, cs = used ++ rest ∧ ∀ more, readString (used ++ more) = .ok (s, more) := by
  obtain ⟨⟨body, behind⟩, hbody, hbehind⟩ := Except.bind_eq_ok h
  cases hbehind
  obtain ⟨used, rfl, hused⟩ := readChars_eq hbody
  refine ⟨used, rfl, fun more => ?_⟩
  have hlong : used.length ≤ (used ++ more).length + 1 := by
    rw [List.length_append]
    omega
  simp only [readString, hused more _ hlong, bind, Except.bind]

section

variable {negative : Bool} {cs rest ds : List Char} {k : ℤ} {v : Json}

theorem readWhole_eq {w : List Char} (h : readWhole cs = .ok (w, rest)) :
    cs = w ++ rest ∧ IsLeading w := by
  rw [readWhole.eq_def] at h
  split at h
  · cases h
  · split at h
    · cases h
    · cases h
      exact ⟨rfl, isLeading_singleton rfl⟩
  · rename_i c cs hzero
    split at h
    · rename_i hc
      obtain ⟨hcs, hdigits⟩ := spanDigits_eq (Except.ok.inj h)
      have hw : w.head? = some c := by
        have hone : (spanDigits (c :: cs)).1.head? = some c := by
          simp [spanDigits, List.span_eq_takeWhile_dropWhile, hc]
        rwa [Except.ok.inj h] at hone
      refine ⟨hcs, ?_, hdigits, ?_⟩
      · rintro rfl
        cases hw
      · rw [hw]
        intro h0
        exact absurd (Option.some.inj h0) hzero
    · cases h

theorem readFraction_eq {r : List Char} (h : readFraction cs = .ok (r, rest)) :
    cs = r ++ rest ∧ r ≠ [] ∧ ∀ c ∈ r, isDigit c = true := by
  rw [readFraction] at h
  cases hspan : spanDigits cs with
  | mk ds behind =>
    rw [hspan] at h
    dsimp only at h
    split_ifs at h with hempty
    cases h
    obtain ⟨hcs, hdigits⟩ := spanDigits_eq hspan
    exact ⟨hcs, by simpa using hempty, hdigits⟩

theorem roundNumber_eq (h : roundNumber negative ds k cs = .ok (v, rest)) :
    rest = cs ∧ ∀ more, roundNumber negative ds k more = .ok (v, more) := by
  unfold roundNumber at h ⊢
  split at h
  · cases h
    exact ⟨rfl, fun _ => rfl⟩
  · cases h

theorem spanSign_eq {below : Bool} (h : spanSign cs = (below, rest)) :
    ∃ sign, cs = sign ++ rest ∧ ∀ c more, isDigit c = true →
      spanSign (sign ++ c :: more) = (below, c :: more) := by
  rw [spanSign.eq_def] at h
  split at h
  · cases h
    exact ⟨['-'], rfl, fun _ _ _ => rfl⟩
  · cases h
    exact ⟨['+'], rfl, fun _ _ _ => rfl⟩
  · cases h
    refine ⟨[], rfl, fun c more hc => ?_⟩
    rw [List.nil_append, spanSign]
    all_goals
      rintro r heq
      cases heq
      cases hc

theorem spanExponent_eq {n m : ℕ} {all : Bool} (h : spanExponent n cs = (m, all, rest)) :
    ∃ ds, cs = ds ++ rest ∧
      ∀ more, (∀ c ∈ more.head?, isDigit c = false) ∨ all = false →
        spanExponent n (ds ++ more) = (m, all, more) := by
  fun_induction spanExponent n cs with
  | case1 n =>
    cases h
    refine ⟨[], rfl, fun more hmore => ?_⟩
    cases more with
    | nil => rfl
    | cons c more =>
      have hc : isDigit c = false := hmore.resolve_right nofun c rfl
      rw [List.nil_append, spanExponent, hc]
      rfl
  | case2 n c cs hc m hover =>
    obtain ⟨rfl, rfl, rfl⟩ : m = _ ∧ false = all ∧ cs = rest := by simpa using h
    refine ⟨[c], rfl, fun more _ => ?_⟩
    rw [List.singleton_append, spanExponent, if_pos hc]
    simp only [if_pos hover, m]
  | case3 n c cs hc m hfits ih =>
    obtain ⟨ds, rfl, hds⟩ := ih h
    refine ⟨c :: ds, rfl, fun more hmore => ?_⟩
    rw [List.cons_append, spanExponent, if_pos hc]
    simp only [if_neg hfits, m, hds more hmore]
  | case4 n c cs hc =>
    cases h
    refine ⟨[], rfl, fun more hmore => ?_⟩
    cases more with
    | nil => rfl
    | cons d more =>
      have hd : isDigit d = false := hmore.resolve_right nofun d rfl
      rw [List.nil_append, spanExponent, hd]
      rfl

theorem spanExponent_digit {c : Char} (hc : isDigit c = true) (cs : List Char) :
    spanExponent 0 (c :: cs) = spanExponent (c.toNat - '0'.toNat) cs := by
  have hnine : c.toNat ≤ '9'.toNat := by
    rw [isDigit, Bool.and_eq_true, decide_eq_true_iff, decide_eq_true_iff] at hc
    exact hc.2
  have hle : ¬ exponentLimit < c.toNat - '0'.toNat := by
    have hten : c.toNat ≤ 57 := hnine
    unfold exponentLimit
    omega
  rw [spanExponent, if_pos hc]
  simp only [Nat.mul_zero, Nat.zero_add, if_neg hle]

theorem dropWhile_digits {ds more : List Char} (hds : ∀ c ∈ ds, isDigit c = true)
    (hmore : ∀ c ∈ more.head?, isDigit c = false) : (ds ++ more).dropWhile isDigit = more := by
  have hspan := spanDigits_append hds hmore
  rw [spanDigits, List.span_eq_takeWhile_dropWhile] at hspan
  exact congrArg Prod.snd hspan

theorem readExponent_of_spans {below all : Bool} {c : Char} {tail : List Char} {n : ℕ}
    (hsign : spanSign cs = (below, c :: tail)) (hc : isDigit c = true)
    (hspan : spanExponent (c.toNat - '0'.toNat) tail = (n, all, rest)) :
    readExponent negative ds k cs =
      if all then roundNumber negative ds (if below then k - n else k + n) rest
      else if ¬below ∧ natOfDigits ds ≠ 0 then .error (failAt .numberOutOfRange rest)
      else roundNumber negative ['0'] 0 (rest.dropWhile isDigit) := by
  simp only [readExponent, hsign, hc, not_true_eq_false, if_false, spanExponent_digit, hspan]

theorem readExponent_eq (h : readExponent negative ds k cs = .ok (v, rest)) :
    ∃ used, cs = used ++ rest ∧ ∀ more, NumberEnds more →
      readExponent negative ds k (used ++ more) = .ok (v, more) := by
  obtain ⟨below, c, tail, hsign, hc⟩ :
      ∃ below c tail, spanSign cs = (below, c :: tail) ∧ isDigit c = true := by
    obtain ⟨below, behind, hsign⟩ : ∃ below behind, spanSign cs = (below, behind) := ⟨_, _, rfl⟩
    rw [readExponent, hsign] at h
    cases behind with
    | nil => cases h
    | cons c tail =>
      by_cases hc : isDigit c = true
      · exact ⟨below, c, tail, hsign, hc⟩
      · simp only [hc] at h
        cases h
  obtain ⟨sign, rfl, hsigned⟩ := spanSign_eq hsign
  obtain ⟨n, all, behind, hspan⟩ :
      ∃ n all behind, spanExponent (c.toNat - '0'.toNat) tail = (n, all, behind) := ⟨_, _, _, rfl⟩
  obtain ⟨es, rfl, hes⟩ := spanExponent_eq hspan
  rw [readExponent_of_spans hsign hc hspan] at h
  by_cases hall : all = true
  · rw [if_pos hall] at h
    obtain ⟨rfl, hround⟩ := roundNumber_eq h
    refine ⟨sign ++ c :: es, by simp, fun more hmore => ?_⟩
    rw [List.append_assoc, List.cons_append,
      readExponent_of_spans (hsigned c _ hc) hc (hes more (.inl hmore.not_digit)), if_pos hall,
      hround]
  · -- What is left of the digits is passed over.
    rw [if_neg hall] at h
    split_ifs at h with hhuge
    obtain ⟨rfl, hround⟩ := roundNumber_eq h
    refine ⟨sign ++ c :: (es ++ behind.takeWhile isDigit), ?_, fun more hmore => ?_⟩
    · simp [List.takeWhile_append_dropWhile]
    · have hdigits := dropWhile_digits
        (fun c (hc : c ∈ behind.takeWhile isDigit) => List.mem_takeWhile_imp hc) hmore.not_digit
      rw [List.append_assoc, List.cons_append, List.append_assoc,
        readExponent_of_spans (hsigned c _ hc) hc (hes _ (.inr (by simpa using hall))), if_neg hall,
        if_neg hhuge, hdigits, hround]

theorem readNumber_append {w more : List Char} (hw : IsLeading w) (hmore : NumberEnds more) :
    readNumber negative (w ++ more) =
      if IsWhole (if negative then -(natOfDigits w : ℤ) else natOfDigits w) ∧
          (negative → natOfDigits w ≠ 0) then
        .ok (int (if negative then -(natOfDigits w : ℤ) else natOfDigits w), more)
      else roundNumber negative w 0 more := by
  rw [readNumber, readWhole_append hw hmore.not_digit]
  simp only [bind, Except.bind]
  split
  · exact absurd rfl (hmore '.' rfl).2.1
  · exact absurd rfl (hmore 'e' rfl).2.2.1
  · exact absurd rfl (hmore 'E' rfl).2.2.2
  · rfl

theorem readNumber_exponential {w r more : List Char} (hw : IsLeading w) (hne : r ≠ [])
    (hr : ∀ c ∈ r, isDigit c = true) {mark : Char} (hmark : mark = 'e' ∨ mark = 'E') :
    readNumber negative (w ++ '.' :: (r ++ mark :: more)) =
      readExponent negative (w ++ r) (-(r.length : ℤ)) more := by
  have hwhole : readWhole (w ++ '.' :: (r ++ mark :: more)) = .ok (w, '.' :: (r ++ mark :: more)) :=
    readWhole_append hw (by intro c hc; cases hc; rfl)
  have hfraction : readFraction (r ++ mark :: more) = .ok (r, mark :: more) :=
    readFraction_append hne hr (by intro c hc; cases hc; rcases hmark with rfl | rfl <;> rfl)
  rw [readNumber, hwhole]
  simp only [bind, Except.bind, hfraction]
  rcases hmark with rfl | rfl <;> rfl

theorem readNumber_marked {w more : List Char} (hw : IsLeading w) {mark : Char}
    (hmark : mark = 'e' ∨ mark = 'E') :
    readNumber negative (w ++ mark :: more) = readExponent negative w 0 more := by
  have hwhole : readWhole (w ++ mark :: more) = .ok (w, mark :: more) :=
    readWhole_append hw (by intro c hc; cases hc; rcases hmark with rfl | rfl <;> rfl)
  rw [readNumber, hwhole]
  rcases hmark with rfl | rfl <;> rfl

/-- What is read behind a part of a number that goes on with an exponent. -/
theorem exists_used_append {r : List Char → Except Failure (Json × List Char)} {front : List Char}
    (hr : ∀ more, r (front ++ more) = readExponent negative ds k more)
    (h : readExponent negative ds k cs = .ok (v, rest)) :
    ∃ used, front ++ cs = used ++ rest ∧ ∀ more, NumberEnds more →
      r (used ++ more) = .ok (v, more) := by
  obtain ⟨used, rfl, hused⟩ := readExponent_eq h
  refine ⟨front ++ used, (List.append_assoc ..).symm, fun more hmore => ?_⟩
  rw [List.append_assoc, hr, hused more hmore]

/-- A number goes as far as it can, and is read the same before anything that does not go on it. -/
theorem readNumber_eq (h : readNumber negative cs = .ok (v, rest)) :
    ∃ used, cs = used ++ rest ∧ ∀ more, NumberEnds more →
      readNumber negative (used ++ more) = .ok (v, more) := by
  rw [readNumber] at h
  obtain ⟨⟨w, cs⟩, hwhole, hbehind⟩ := Except.bind_eq_ok h
  obtain ⟨rfl, hw⟩ := readWhole_eq hwhole
  dsimp only at hbehind
  split at hbehind
  · rename_i cs
    obtain ⟨⟨r, cs⟩, hfraction, hround⟩ := Except.bind_eq_ok hbehind
    obtain ⟨rfl, hne, hr⟩ := readFraction_eq hfraction
    dsimp only at hround
    have hfront : ∀ {mark : Char} (cs : List Char), mark = 'e' ∨ mark = 'E' →
        readExponent negative (w ++ r) (-(r.length : ℤ)) cs = .ok (v, rest) →
        ∃ used, w ++ '.' :: (r ++ mark :: cs) = used ++ rest ∧ ∀ more, NumberEnds more →
          readNumber negative (used ++ more) = .ok (v, more) := by
      intro mark cs hmark h
      have happend : ∀ more,
          (w ++ '.' :: (r ++ [mark])) ++ more = w ++ '.' :: (r ++ mark :: more) := by
        simp
      rw [← happend]
      exact exists_used_append
        (fun more => by rw [happend, readNumber_exponential hw hne hr hmark]) h
    split at hround
    · exact hfront _ (.inl rfl) hround
    · exact hfront _ (.inr rfl) hround
    · obtain ⟨rfl, hrounded⟩ := roundNumber_eq hround
      refine ⟨w ++ '.' :: r, by simp, fun more hmore => ?_⟩
      rw [List.append_assoc, List.cons_append, readNumber_pointed negative hw hne hr hmore,
        hrounded]
  · rw [List.append_cons]
    refine exists_used_append (fun more => ?_) hbehind
    rw [← List.append_cons, readNumber_marked hw (.inl rfl)]
  · rw [List.append_cons]
    refine exists_used_append (fun more => ?_) hbehind
    rw [← List.append_cons, readNumber_marked hw (.inr rfl)]
  · have hplain : ∀ more, NumberEnds more → _ := fun more => @readNumber_append negative w more hw
    generalize (if negative = true then -(natOfDigits w : ℤ) else natOfDigits w) = value
      at hbehind hplain
    split at hbehind
    · rename_i hkept
      cases hbehind
      exact ⟨w, rfl, fun more hmore => by rw [hplain more hmore, if_pos hkept]⟩
    · rename_i hkept
      obtain ⟨rfl, hround⟩ := roundNumber_eq hbehind
      exact ⟨w, rfl, fun more hmore => by rw [hplain more hmore, if_neg hkept, hround]⟩

theorem readNumber_head (h : readNumber negative cs = .ok (v, rest)) :
    ∃ c tail, cs = c :: tail ∧ isDigit c = true := by
  obtain ⟨⟨w, behind⟩, hwhole, -⟩ := Except.bind_eq_ok h
  obtain ⟨rfl, hw⟩ := readWhole_eq hwhole
  obtain ⟨c, tail, rfl, hc⟩ := hw.head
  exact ⟨c, tail ++ behind, rfl, hc⟩

theorem exists_numeric (h : readNumber negative cs = .ok (v, rest)) :
    ∃ ds, cs = ds ++ rest ∧ Numeric negative ds v := by
  obtain ⟨ds, hcs, hread⟩ := readNumber_eq h
  have hhead := readNumber_head (hread [] .nil)
  rw [List.append_nil] at hhead
  exact ⟨ds, hcs, hhead, hread⟩

end

/-- A text that is read as a value at any depth, so as no array and no object. -/
def ReadsScalar (text : List Char) (v : Json) : Prop := ∀ depth, Codec.any.Reads depth text v

theorem readsScalar_word {word : List Char} {v : Json} {c : Char} (hopens : Opens (c :: word))
    (hread : ∀ depth rest, readValue depth (c :: (word ++ rest)) =
      (readWord word (word ++ rest) >>= fun rest => .ok (v, rest))) :
    ReadsScalar (c :: word) v := by
  refine fun depth => ⟨hopens, fun {rest} _ => ?_⟩
  show readValue depth (c :: (word ++ rest)) = _
  rw [hread, readWord_append]
  rfl

theorem readValue_array {depth : ℕ} {body rest : List Char} {v : Json}
    (h : readValue depth ('[' :: body) = .ok (v, rest)) :
    ∃ d items behind, depth = d + 1 ∧ v = array items ∧
      readItems (readValue d) (body.length + 1) 0 body = .ok (items, behind) ∧
      closeList behind = .ok rest := by
  rw [readValue, skipSpace_cons rfl] at h
  cases depth with
  | zero => cases h
  | succ d =>
    obtain ⟨⟨items, behind⟩, hitems, hclose⟩ := Except.bind_eq_ok h
    obtain ⟨_, hclosed, hdone⟩ := Except.bind_eq_ok hclose
    cases hdone
    exact ⟨d, items, behind, rfl, rfl, hitems, hclosed⟩

theorem readValue_object {depth : ℕ} {body rest : List Char} {v : Json}
    (h : readValue depth ('{' :: body) = .ok (v, rest)) :
    ∃ d entries behind, depth = d + 1 ∧ v = object entries ∧
      readEntries (valueEntry d) (body.length + 1) true [] body = .ok (entries, behind) ∧
      closeObject behind = .ok rest := by
  rw [readValue, skipSpace_cons rfl] at h
  cases depth with
  | zero => cases h
  | succ d =>
    obtain ⟨⟨entries, behind⟩, hentries, hclose⟩ := Except.bind_eq_ok h
    obtain ⟨_, hclosed, hdone⟩ := Except.bind_eq_ok hclose
    cases hdone
    exact ⟨d, entries, behind, rfl, rfl, hentries, hclosed⟩

theorem skipSpace_idem (cs : List Char) : skipSpace (skipSpace cs) = skipSpace cs :=
  List.dropWhile_idempotent _ cs

theorem readValue_skipSpace (depth : ℕ) (cs : List Char) :
    readValue depth (skipSpace cs) = readValue depth cs := by
  rw [readValue, skipSpace_idem, ← readValue]

/-- What a value is read from: the text of a scalar, or items or entries in their brackets. -/
theorem readValue_parts {depth : ℕ} {cs rest : List Char} {v : Json}
    (h : readValue depth cs = .ok (v, rest)) :
    (∃ text, skipSpace cs = text ++ rest ∧ ReadsScalar text v) ∨
    (∃ body, skipSpace cs = '[' :: body ∧ readValue depth ('[' :: body) = .ok (v, rest)) ∨
    ∃ body, skipSpace cs = '{' :: body ∧ readValue depth ('{' :: body) = .ok (v, rest) := by
  have hread : readValue depth (skipSpace cs) = .ok (v, rest) := by rwa [readValue_skipSpace]
  -- The first character behind the space tells what kind of value it is.
  rw [readValue] at h
  split at h
  case h_1 => cases h
  case h_2 cs hskip =>
    obtain ⟨behind, hword, hbehind⟩ := Except.bind_eq_ok h
    cases hbehind
    rw [hskip, readWord_eq hword]
    refine .inl ⟨"null".toList, rfl, readsScalar_word (opens_cons _) fun depth rest => ?_⟩
    rw [readValue]
    rfl
  case h_3 cs hskip =>
    obtain ⟨behind, hword, hbehind⟩ := Except.bind_eq_ok h
    cases hbehind
    rw [hskip, readWord_eq hword]
    refine .inl ⟨"true".toList, rfl, readsScalar_word (opens_cons _) fun depth rest => ?_⟩
    rw [readValue]
    rfl
  case h_4 cs hskip =>
    obtain ⟨behind, hword, hbehind⟩ := Except.bind_eq_ok h
    cases hbehind
    rw [hskip, readWord_eq hword]
    refine .inl ⟨"false".toList, rfl, readsScalar_word (opens_cons _) fun depth rest => ?_⟩
    rw [readValue]
    rfl
  case h_5 cs hskip =>
    obtain ⟨ds, rfl, hds⟩ := exists_numeric h
    exact .inl ⟨'-' :: ds, hskip, reads_number hds⟩
  case h_6 cs hskip =>
    obtain ⟨⟨s, behind⟩, hstring, hbehind⟩ := Except.bind_eq_ok h
    cases hbehind
    obtain ⟨used, rfl, hused⟩ := readString_eq hstring
    refine .inl ⟨'"' :: used, hskip, fun depth => ⟨opens_cons _, fun {more} _ => ?_⟩⟩
    show readValue depth ('"' :: (used ++ more)) = _
    rw [readValue, skipSpace_cons rfl]
    simp only [hused, bind, Except.bind]
  case h_7 body hskip => exact .inr (.inl ⟨body, hskip, hskip ▸ hread⟩)
  case h_8 body hskip => exact .inr (.inr ⟨body, hskip, hskip ▸ hread⟩)
  case h_9 c cs hskip =>
    split at h
    · obtain ⟨ds, hcs, hds⟩ := exists_numeric h
      exact .inl ⟨ds, hskip.trans hcs, reads_number hds⟩
    · cases h

end Screener.Json
