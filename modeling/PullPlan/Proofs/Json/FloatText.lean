import PullPlan.Proofs.Json.Numeral
import PullPlan.Proofs.Number.Interval

/-!
# The numerals of doubles

A double is written as a numeral (`Numeral.ofText?_floatText`): `Numeral.ofDouble` is the numeral
that the reader finds in the text. Its exact value is the shortest decimal of the double
(`Numeral.exactValue_ofDecimal`), which lies in the rounding interval of the double and of no other.
So the numeral identifies the double (`Numeral.ofDouble_injective`), although `Numeral.value?`,
which rounds twice, need not give the double back.
-/

namespace PullPlan

theorem Text.toNat_append (t u : Text) :
    toNat (t ++ u) = toNat t * 10 ^ u.length + toNat u := by
  -- The digits behind start from what those in front have yielded, so the start is general.
  have hstart : ∀ n, u.foldl (fun n c => 10 * n + (c.toNat - '0'.toNat)) n
      = n * 10 ^ u.length + toNat u := by
    induction u with
    | nil => simp [Text.toNat]
    | cons c u ih =>
      intro n
      unfold toNat
      rw [List.foldl_cons, List.foldl_cons, ih, ih, List.length_cons, Nat.pow_succ]
      ring
  unfold toNat at hstart ⊢
  rw [List.foldl_append, hstart]

namespace Json
namespace Numeral

/-! ### Exact values -/

/-- The exact value of a numeral without its sign. -/
def exactValue (n : Numeral) : ℚ :=
  Text.toNat (n.whole ++ n.fraction) * 10 ^ (n.exponent.getD 0 - n.fraction.length)

/-- The exact value of a numeral from its digits and the power of ten at their end. -/
theorem exactValue_eq {n : Numeral} {digits : Nat} {e : Int}
    (hdigits : Text.toNat (n.whole ++ n.fraction) = digits)
    (hexponent : n.exponent.getD 0 - n.fraction.length = e) :
    n.exactValue = digits * 10 ^ e := by
  rw [exactValue, hdigits, hexponent]

theorem toNat_zeros (n : Nat) : Text.toNat (zeros n) = 0 := by
  induction n with
  | zero => rfl
  | succ n ih => exact ih

theorem toNat_zeros_append (n : Nat) (t : Text) : Text.toNat (zeros n ++ t) = Text.toNat t := by
  rw [Text.toNat_append, toNat_zeros, Nat.zero_mul, Nat.zero_add]

theorem length_zeros (n : Nat) : (zeros n).length = n := List.length_replicate

/-! ### Reading the parts of a numeral -/

/-- What may stand before the point: digits, without a leading zero unless it stands alone. -/
structure IsWhole (whole : Text) : Prop where
  isDigit : ∀ c ∈ whole, isAsciiDigit c = true
  ne_nil : whole ≠ []
  lead : whole.head? = some '0' → whole.length ≤ 1

theorem IsWhole.not_refused {whole : Text} (h : IsWhole whole) :
    (whole.isEmpty || (decide (whole.head? = some '0') && decide (1 < whole.length))) = false := by
  have hne : whole.isEmpty = false := by simpa using h.ne_nil
  rw [hne, Bool.false_or, Bool.and_eq_false_iff, decide_eq_false_iff_not, decide_eq_false_iff_not]
  by_cases hzero : whole.head? = some '0'
  · exact .inr (not_lt.2 (h.lead hzero))
  · exact .inl hzero

theorem unsigned?_fraction {negative : Bool} {whole fraction rest : Text} (hwhole : IsWhole whole)
    (hfraction : ∀ c ∈ fraction, isAsciiDigit c = true) (hne : fraction ≠ [])
    (hrest : ∀ c, rest.head? = some c → isAsciiDigit c = false) :
    unsigned? negative (whole ++ '.' :: (fraction ++ rest))
      = (exponentPart? rest).map (Numeral.mk negative whole fraction) := by
  have hpoint : ∀ c, ('.' :: (fraction ++ rest)).head? = some c → isAsciiDigit c = false := by
    rintro c ⟨⟩
    decide
  obtain ⟨htake, hdrop⟩ := Text.run_iff.2 ⟨rfl, hwhole.isDigit, hpoint⟩
  obtain ⟨htake', hdrop'⟩ := Text.run_iff.2 ⟨rfl, hfraction, hrest⟩
  have hne' : fraction.isEmpty = false := by simpa using hne
  unfold unsigned?
  simp only [htake, hdrop, hwhole.not_refused, htake', hdrop', hne', Bool.false_eq_true, ↓reduceIte]

theorem unsigned?_point {negative : Bool} {whole fraction : Text} (hwhole : IsWhole whole)
    (hfraction : ∀ c ∈ fraction, isAsciiDigit c = true) (hne : fraction ≠ []) :
    unsigned? negative (whole ++ '.' :: fraction) = some ⟨negative, whole, fraction, none⟩ := by
  have hend : ∀ c, ([] : Text).head? = some c → isAsciiDigit c = false := by
    rintro c ⟨⟩
  have hread : unsigned? negative (whole ++ '.' :: (fraction ++ []))
      = (exponentPart? []).map (Numeral.mk negative whole fraction) :=
    unsigned?_fraction hwhole hfraction hne hend
  rw [List.append_nil] at hread
  exact hread

theorem unsigned?_mark {negative : Bool} {whole rest : Text} (hwhole : IsWhole whole) :
    unsigned? negative (whole ++ 'e' :: rest)
      = (exponentPart? ('e' :: rest)).map (Numeral.mk negative whole []) := by
  have hmark : ∀ c, ('e' :: rest).head? = some c → isAsciiDigit c = false := by
    rintro c ⟨⟩
    decide
  obtain ⟨htake, hdrop⟩ := Text.run_iff.2 ⟨rfl, hwhole.isDigit, hmark⟩
  unfold unsigned?
  simp only [htake, hdrop, hwhole.not_refused, Bool.false_eq_true, ↓reduceIte]
  rfl

/-- An exponent is read back with its sign. -/
theorem exponentPart?_written (e : Int) :
    exponentPart? ('e' :: (if e < 0 then '-' else '+') :: Text.ofNat e.natAbs) = some (some e) := by
  have hnatural : Text.natural? (Text.ofNat e.natAbs) = some e.natAbs :=
    Text.natural?_eq_some_iff.2
      ⟨Text.ofNat_ne_nil _, fun c => Text.isAsciiDigit_of_mem_ofNat, Text.toNat_ofNat _⟩
  by_cases hneg : e < 0
  · have hvalue : -(e.natAbs : Int) = e := by omega
    rw [if_pos hneg, exponentPart?, if_pos (by decide)]
    rw [hnatural]
    show some (some (-(e.natAbs : Int))) = some (some e)
    rw [hvalue]
  · have hvalue : (e.natAbs : Int) = e := by omega
    rw [if_neg hneg, exponentPart?, if_pos (by decide)]
    rw [hnatural]
    show some (some (e.natAbs : Int)) = some (some e)
    rw [hvalue]

/-! ### The numeral of a decimal -/

/-- The numeral that a positive decimal is written as. -/
def ofDecimal (negative : Bool) (d : Decimal) : Numeral :=
  let digits := Text.ofNat d.digits
  let point : Int := digits.length + d.exponent
  let leading := point - 1
  if positionalFrom ≤ leading && leading < positionalBelow then
    if 0 ≤ d.exponent then ⟨negative, digits ++ zeros d.exponent.toNat, ['0'], none⟩
    else if 0 < point then ⟨negative, digits.take point.toNat, digits.drop point.toNat, none⟩
    else ⟨negative, ['0'], zeros (-point).toNat ++ digits, none⟩
  else ⟨negative, digits.take 1, digits.drop 1, some leading⟩

theorem isDigit_of_mem_zeros {n : Nat} {c : Char} (h : c ∈ zeros n) : isAsciiDigit c = true := by
  rw [List.eq_of_mem_replicate h]
  decide

/-- The digits of a positive number, or the first few of them, may stand before the point. -/
theorem isWhole_take {n count : Nat} (hn : 0 < n) (hcount : 0 < count) :
    IsWhole ((Text.ofNat n).take count) := by
  obtain ⟨c, digits, hdigits⟩ := List.exists_cons_of_ne_nil (Text.ofNat_ne_nil n)
  obtain ⟨count, rfl⟩ : ∃ k, count = k + 1 := ⟨count - 1, by omega⟩
  refine ⟨fun d hd => Text.isAsciiDigit_of_mem_ofNat (List.mem_of_mem_take hd), ?_, fun hzero => ?_⟩
  · rw [hdigits]
    exact List.cons_ne_nil _ _
  · have hhead := Text.ofNat_head?_ne_zero hn
    rw [hdigits] at hzero hhead
    exact absurd hzero hhead

/-- The digits of a positive number may be followed by zeros. -/
theorem isWhole_append_zeros {n : Nat} (hn : 0 < n) (count : Nat) :
    IsWhole (Text.ofNat n ++ zeros count) := by
  have hne : Text.ofNat n ≠ [] := Text.ofNat_ne_nil n
  refine ⟨fun c hc => ?_, by simp [hne], fun hlead => ?_⟩
  · rcases List.mem_append.1 hc with hc | hc
    · exact Text.isAsciiDigit_of_mem_ofNat hc
    · exact isDigit_of_mem_zeros hc
  · rw [List.head?_append_of_ne_nil _ hne] at hlead
    exact absurd hlead (Text.ofNat_head?_ne_zero hn)

/-- One digit before the point and an exponent; without further digits there is no point. -/
theorem unsigned?_leading {negative : Bool} {n : Nat} (hn : 0 < n) (e : Int) :
    unsigned? negative
        ((Text.ofNat n).take 1
          ++ (if (Text.ofNat n).length ≤ 1 then [] else '.' :: (Text.ofNat n).drop 1)
          ++ 'e' :: (if e < 0 then '-' else '+') :: Text.ofNat e.natAbs)
      = some ⟨negative, (Text.ofNat n).take 1, (Text.ofNat n).drop 1, some e⟩ := by
  have hwhole : IsWhole ((Text.ofNat n).take 1) := isWhole_take hn Nat.one_pos
  have hexponent := exponentPart?_written e
  by_cases hshort : (Text.ofNat n).length ≤ 1
  · have hdrop : (Text.ofNat n).drop 1 = [] := List.drop_eq_nil_iff.2 hshort
    rw [if_pos hshort, List.append_nil, unsigned?_mark hwhole, hexponent, hdrop]
    rfl
  · have hdrop : (Text.ofNat n).drop 1 ≠ [] := by
      rw [ne_eq, List.drop_eq_nil_iff]
      exact hshort
    have hdigits : ∀ c ∈ (Text.ofNat n).drop 1, isAsciiDigit c = true := fun c hc =>
      Text.isAsciiDigit_of_mem_ofNat (List.mem_of_mem_drop hc)
    have hmark : ∀ rest : Text, ∀ c, ('e' :: rest).head? = some c → isAsciiDigit c = false := by
      rintro rest c ⟨⟩
      decide
    rw [if_neg hshort, List.append_assoc, List.cons_append,
      unsigned?_fraction hwhole hdigits hdrop (hmark _), hexponent]
    rfl

/-- **A positive decimal is written as its numeral.** -/
theorem unsigned?_decimalText (negative : Bool) {d : Decimal} (hd : 0 < d.digits) :
    unsigned? negative (decimalText d) = some (ofDecimal negative d) := by
  have hdigit : ∀ c ∈ Text.ofNat d.digits, isAsciiDigit c = true :=
    fun _ => Text.isAsciiDigit_of_mem_ofNat
  have hzero : IsWhole ['0'] :=
    ⟨fun c => isDigit_of_mem_zeros (n := 1), List.cons_ne_nil '0' [], fun _ => le_refl _⟩
  unfold decimalText ofDecimal
  dsimp only
  split
  · split
    · -- A whole number, with the zeros that its exponent stands for.
      exact unsigned?_point (isWhole_append_zeros hd _) hzero.isDigit hzero.ne_nil
    · split
      · -- The point stands among the digits.
        rename_i hexponent hpoint
        have hdrop : (Text.ofNat d.digits).drop
            ((Text.ofNat d.digits).length + d.exponent : Int).toNat ≠ [] := by
          rw [ne_eq, List.drop_eq_nil_iff]
          omega
        have hcount : 0 < ((Text.ofNat d.digits).length + d.exponent : Int).toNat := by omega
        exact unsigned?_point (isWhole_take hd hcount)
          (fun c hc => hdigit c (List.mem_of_mem_drop hc)) hdrop
      · -- The point stands before all digits.
        refine unsigned?_point hzero (fun c hc => ?_) (by simp [Text.ofNat_ne_nil])
        rcases List.mem_append.1 hc with hc | hc
        · exact isDigit_of_mem_zeros hc
        · exact hdigit c hc
  · exact unsigned?_leading hd _

/-- **The numeral of a decimal has its value.** -/
theorem exactValue_ofDecimal (negative : Bool) (d : Decimal) :
    (ofDecimal negative d).exactValue = d.digits * 10 ^ d.exponent := by
  have hdigits : Text.toNat (Text.ofNat d.digits) = d.digits := Text.toNat_ofNat d.digits
  have hlength : 0 < (Text.ofNat d.digits).length :=
    List.length_pos_iff.2 (Text.ofNat_ne_nil d.digits)
  -- Wherever the point stands among the digits, they are the same number.
  have hsplit : ∀ count, Text.toNat ((Text.ofNat d.digits).take count
      ++ (Text.ofNat d.digits).drop count) = d.digits := by
    intro count
    rw [List.take_append_drop, hdigits]
  unfold ofDecimal
  dsimp only
  split
  · split
    · -- The zero behind the point is one more digit, which the exponent takes back.
      have hwhole : Text.toNat (Text.ofNat d.digits ++ zeros d.exponent.toNat ++ ['0'])
          = d.digits * 10 ^ (d.exponent.toNat + 1) := by
        rw [List.append_assoc, Text.toNat_append, hdigits, List.length_append, length_zeros,
          toNat_zeros_append]
        rfl
      have hpower : (d.exponent.toNat + 1 : Nat) + (0 - (1 : Nat) : Int) = d.exponent := by omega
      rw [exactValue_eq hwhole rfl, Nat.cast_mul, Nat.cast_pow, Nat.cast_ofNat, mul_assoc,
        ← zpow_natCast, ← zpow_add₀ (by norm_num)]
      exact congrArg (fun e => (d.digits : ℚ) * 10 ^ e) hpower
    · split
      · refine exactValue_eq (hsplit _) ?_
        dsimp only
        rw [Option.getD_none, List.length_drop]
        omega
      · have hzeros : ∀ n, Text.toNat (['0'] ++ (zeros n ++ Text.ofNat d.digits)) = d.digits := by
          intro n
          have hfront : Text.toNat (['0'] ++ (zeros n ++ Text.ofNat d.digits))
              = Text.toNat (zeros n ++ Text.ofNat d.digits) := toNat_zeros_append 1 _
          rw [hfront, toNat_zeros_append, hdigits]
        refine exactValue_eq (hzeros _) ?_
        dsimp only
        rw [Option.getD_none, List.length_append, length_zeros]
        omega
  · refine exactValue_eq (hsplit 1) ?_
    dsimp only
    rw [Option.getD_some, List.length_drop]
    omega

/-- The numeral of a decimal has a fraction or an exponent, unlike the numeral of an integer. -/
theorem ofDecimal_not_integer (negative : Bool) (d : Decimal) :
    (ofDecimal negative d).fraction ≠ [] ∨ (ofDecimal negative d).exponent ≠ none := by
  unfold ofDecimal
  dsimp only
  split
  · split
    · exact .inl (List.cons_ne_nil _ _)
    · split
      · rename_i hexponent hpoint
        refine .inl ?_
        dsimp only
        rw [ne_eq, List.drop_eq_nil_iff]
        omega
      · exact .inl (by simp [Text.ofNat_ne_nil])
  · exact .inr (Option.some_ne_none _)

/-! ### The numeral of a double -/

/-- The numeral that a double is written as. -/
def ofDouble (x : Double) : Numeral :=
  if x.magnitude.rank = 0 then ⟨x.negative, ['0'], ['0'], none⟩
  else ofDecimal x.negative x.magnitude.shortest

theorem unsigned?_magnitude (x : Double) :
    unsigned? x.negative
        (if x.magnitude.rank = 0 then "0.0".toList else decimalText x.magnitude.shortest)
      = some (ofDouble x) := by
  unfold ofDouble
  by_cases hzero : x.magnitude.rank = 0
  · rw [if_pos hzero, if_pos hzero]
    rfl
  · rw [if_neg hzero, if_neg hzero]
    exact unsigned?_decimalText x.negative
      (Magnitude.shortest_digits_pos (Nat.pos_of_ne_zero hzero))

/-- **The text of a double is its numeral.** -/
theorem ofText?_floatText (x : Double) : ofText? (floatText x) = some (ofDouble x) := by
  have hunsigned := unsigned?_magnitude x
  have htext : floatText x = (if x.negative then ['-'] else [])
      ++ if x.magnitude.rank = 0 then "0.0".toList else decimalText x.magnitude.shortest := by
    unfold floatText
    dsimp only
    split <;> rfl
  rw [htext]
  cases hneg : x.negative with
  | true =>
    rw [hneg] at hunsigned
    exact hunsigned
  | false =>
    rw [hneg] at hunsigned
    obtain ⟨c, rest, hcons, hc⟩ := isAsciiDigit_head_of_unsigned? hunsigned
    have hminus : c ≠ '-' := ne_of_isAsciiDigit hc (by decide)
    rw [if_neg Bool.false_ne_true, List.nil_append, ← hunsigned, hcons, ofText?]
    exact fun _ heq => hminus (List.cons.inj heq).1

theorem ofDouble_negative (x : Double) : (ofDouble x).negative = x.negative := by
  unfold ofDouble ofDecimal
  dsimp only
  split
  · rfl
  · split
    · split
      · rfl
      · split <;> rfl
    · rfl

/-- The exact value of the text of a double lies in its rounding interval. -/
theorem attracts_exactValue (x : Double) : x.magnitude.Attracts (ofDouble x).exactValue := by
  unfold ofDouble
  by_cases hzero : x.magnitude.rank = 0
  · have hexact : exactValue ⟨x.negative, ['0'], ['0'], none⟩ = 0 := by
      show ((0 : Nat) : ℚ) * _ = 0
      rw [Nat.cast_zero, zero_mul]
    rw [if_pos hzero, hexact]
    exact Magnitude.zero_attracts hzero
  · rw [if_neg hzero, exactValue_ofDecimal]
    exact x.magnitude.shortest_attracts

/-- **The numeral of a double identifies it.** -/
theorem ofDouble_injective {x y : Double} (h : ofDouble x = ofDouble y) : x = y := by
  have hx := attracts_exactValue x
  have hy := attracts_exactValue y
  rw [h] at hx
  have hmagnitude : x.magnitude = y.magnitude := Magnitude.eq_of_attracts hx hy
  have hnegative : x.negative = y.negative := by
    rw [← ofDouble_negative x, h, ofDouble_negative]
  cases x
  cases y
  simp_all

/-- A double is not written like an integer. -/
theorem ofDouble_ne (x : Double) (negative : Bool) (whole : Text) :
    ofDouble x ≠ ⟨negative, whole, [], none⟩ := by
  intro heq
  unfold ofDouble at heq
  by_cases hzero : x.magnitude.rank = 0
  · rw [if_pos hzero] at heq
    exact absurd (congrArg Numeral.fraction heq) (List.cons_ne_nil _ _)
  · rw [if_neg hzero] at heq
    rcases ofDecimal_not_integer x.negative x.magnitude.shortest with h | h
    · exact h (congrArg Numeral.fraction heq)
    · exact h (congrArg Numeral.exponent heq)

end Numeral
end Json
end PullPlan
