import PullPlan.Proofs.Number.Exact
import PullPlan.Proofs.Number.Grammar
import PullPlan.Proofs.Number.Literal

/-!
# Integers are read exactly

`Writes` is the number that digits of a base write, and `IsInteger` the integer that a text writes:
decimal digits behind an optional sign, or digits behind the mark of their base. Digits behind a
mark are read in doubles, digit by digit. As every number on the way is at most the one at the end
(`Writes.split`), none of these steps rounds as long as that one is below 2^53
(`accumulate_of_writes`, `readsExactly_of_writes`). So an integer below that bound is read as the
double that it is, with however many zeros it starts (`IsInteger.trimmed?`).
-/

namespace PullPlan
namespace Literal

/-! ### What digits write -/

/-- The number that digits of a base write, the most significant digit first. -/
inductive Writes (base : Nat) : Text → Nat → Prop
  | nil : Writes base [] 0
  | snoc {digits : Text} {n : Nat} {c : Char} {d : Nat} (h : Writes base digits n)
    (hc : digitValue? base c = some d) : Writes base (digits ++ [c]) (n * base + d)

/-- The integer that a text writes. -/
inductive IsInteger : Text → Int → Prop
  | decimal {sign digits : Text} {n : Nat} (hsign : IsSign sign) (hne : digits ≠ [])
    (h : Writes 10 digits n) : IsInteger (sign ++ digits) (if sign = ['-'] then -(n : Int) else n)
  | based {radix : Radix} {mark : Char} {digits : Text} {n : Nat} (hradix : radix ∈ radices)
    (hmark : mark ∈ radix.marks) (hne : digits ≠ []) (h : Writes radix.base digits n) :
    IsInteger ('0' :: mark :: digits) n

theorem lt_of_digitValue? {base : Nat} {c : Char} {d : Nat} (h : digitValue? base c = some d) :
    d < base := by
  have hfilter := (Option.filter_eq_some_iff.1 h).2
  exact of_decide_eq_true hfilter

/-- The number is found digit by digit from the front. -/
theorem writes_iff {base : Nat} {digits : Text} {n : Nat} :
    Writes base digits n ↔
      digits.foldlM (fun m c => (digitValue? base c).map fun d => m * base + d) 0 = some n := by
  constructor
  · intro h
    induction h with
    | nil => rfl
    | snoc h hc ih => simp [List.foldlM_append, ih, hc]
  · induction digits using List.reverseRecOn generalizing n with
    | nil =>
      rintro ⟨⟩
      exact .nil
    | append_singleton digits c ih =>
      intro h
      rw [List.foldlM_append, Option.bind_eq_bind, Option.bind_eq_some_iff] at h
      obtain ⟨m, hm, hc⟩ := h
      simp only [List.foldlM_cons, List.foldlM_nil, Option.bind_eq_bind, Option.bind_eq_some_iff,
        Option.map_eq_some_iff, Option.pure_def, Option.some.injEq] at hc
      obtain ⟨_, ⟨d, hd, rfl⟩, rfl⟩ := hc
      exact .snoc (ih hm) hd

/-- The digits in front of a digit write a number, and with that digit one that is still at most the
number that all digits write. -/
theorem Writes.split {base : Nat} {front back : Text} {c : Char} {n : Nat}
    (h : Writes base (front ++ c :: back) n) :
    ∃ m d, Writes base front m ∧ digitValue? base c = some d ∧ m * base + d ≤ n := by
  generalize ht : front ++ c :: back = t at h
  -- The digit is the last one, or the digits without the last one are split.
  induction h generalizing back with
  | nil => simp at ht
  | @snoc digits m c' d h hc ih =>
    rcases List.eq_nil_or_concat back with rfl | ⟨back, last, rfl⟩
    · obtain ⟨rfl, hlast⟩ := List.append_inj' ht rfl
      obtain rfl := (List.cons.inj hlast).1
      exact ⟨m, d, h, hc, le_rfl⟩
    · rw [List.concat_eq_append, ← List.cons_append, ← List.append_assoc] at ht
      obtain ⟨hfront, -⟩ := List.append_inj' ht rfl
      obtain ⟨k, e, hk, he, hle⟩ := ih hfront
      have hbase : 0 < base := Nat.zero_lt_of_lt (lt_of_digitValue? hc)
      have hgrow : m ≤ m * base + d :=
        (Nat.le_mul_of_pos_right m hbase).trans (Nat.le_add_right _ _)
      exact ⟨k, e, hk, he, hle.trans hgrow⟩

/-! ### Digits behind a mark -/

/-- Whether a digit is read behind those in front of it without rounding: neither the product with
the base nor the sum with the digit is anything but the exact one. -/
def ReadsExactly (base : Nat) (front : Text) (c : Char) : Prop :=
  ∃ m d, accumulate base .zero front = some m ∧ digitValue? base c = some d ∧
    (m.mul (.ofNat base)).value = m.value * base ∧
    ((m.mul (.ofNat base)).addNat d).value = m.value * base + d

theorem accumulate_append (base : Nat) (m : Magnitude) (front back : Text) :
    accumulate base m (front ++ back)
      = (accumulate base m front).bind fun m => accumulate base m back := by
  induction front generalizing m with
  | nil => rfl
  | cons c front ih =>
    simp only [List.cons_append, accumulate, Option.bind_eq_bind, Option.bind_assoc]
    exact congrArg _ (funext fun d => ih _)

/-- One step of the reader: a digit behind digits that have been read exactly. -/
theorem mul_addNat_ofNat {base n d : Nat} (hbase : base < 2 ^ 53) (h : n * base + d < 2 ^ 53)
    (hd : d < base) :
    (Magnitude.ofNat n).mul (.ofNat base) = .ofNat (n * base) ∧
      (Magnitude.ofNat (n * base)).addNat d = .ofNat (n * base + d) := by
  have hproduct : n * base < 2 ^ 53 := (Nat.le_add_right _ _).trans_lt h
  have hn : n < 2 ^ 53 :=
    (Nat.le_mul_of_pos_right n (Nat.zero_lt_of_lt hd)).trans_lt hproduct
  exact ⟨Magnitude.ofNat_mul hn hbase hproduct, Magnitude.ofNat_addNat h⟩

/-- Digits that write a number below 2^53 are read as that number. -/
theorem accumulate_of_writes {base : Nat} (hbase : base < 2 ^ 53) {digits : Text} {n : Nat}
    (h : Writes base digits n) (hn : n < 2 ^ 53) :
    accumulate base .zero digits = some (.ofNat n) := by
  induction h with
  | nil => rfl
  | @snoc digits m c d h hc ih =>
    -- The number of the digits in front is below the bound as well, so they are read exactly.
    have hd := lt_of_digitValue? hc
    have hm : m < 2 ^ 53 := by
      have hle : m ≤ m * base := Nat.le_mul_of_pos_right m (Nat.zero_lt_of_lt hd)
      omega
    obtain ⟨hproduct, hsum⟩ := mul_addNat_ofNat hbase hn hd
    rw [accumulate_append, ih hm, Option.bind_some]
    simp only [accumulate, hc, Option.bind_eq_bind, Option.bind_some, hproduct, hsum]

/-- Each of those digits is read without rounding. -/
theorem readsExactly_of_writes {base : Nat} (hbase : base < 2 ^ 53) {front back : Text} {c : Char}
    {n : Nat} (h : Writes base (front ++ c :: back) n) (hn : n < 2 ^ 53) :
    ReadsExactly base front c := by
  obtain ⟨m, d, hm, hd, hle⟩ := h.split
  have hlt := lt_of_digitValue? hd
  have hsmall : m * base + d < 2 ^ 53 := hle.trans_lt hn
  have hproduct : m * base < 2 ^ 53 := (Nat.le_add_right _ _).trans_lt hsmall
  have hm' : m < 2 ^ 53 :=
    (Nat.le_mul_of_pos_right m (Nat.zero_lt_of_lt hlt)).trans_lt hproduct
  obtain ⟨hmul, hadd⟩ := mul_addNat_ofNat hbase hsmall hlt
  refine ⟨.ofNat m, d, accumulate_of_writes hbase hm hm', hd, ?_, ?_⟩
  · rw [hmul, Magnitude.value_ofNat hproduct, Magnitude.value_ofNat hm', Nat.cast_mul]
  · rw [hmul, hadd, Magnitude.value_ofNat hsmall, Magnitude.value_ofNat hm', Nat.cast_add,
      Nat.cast_mul]

theorem base_lt_of_mem_radices {radix : Radix} (h : radix ∈ radices) : radix.base < 2 ^ 53 := by
  simp only [radices, List.mem_cons, List.not_mem_nil, or_false] at h
  rcases h with rfl | rfl | rfl <;> decide

/-! ### Decimal digits -/

theorem digitValue?_ten {c : Char} {d : Nat} (h : digitValue? 10 c = some d) :
    isAsciiDigit c = true ∧ d = c.toNat - '0'.toNat := by
  obtain ⟨hvalue, hd⟩ := Option.filter_eq_some_iff.1 h
  have hd : d < 10 := of_decide_eq_true hd
  split at hvalue
  · rename_i hdigit
    exact ⟨hdigit, (Option.some.inj hvalue).symm⟩
  · -- Letters count at least ten.
    exfalso
    split at hvalue
    · have := Option.some.inj hvalue
      omega
    · split at hvalue
      · have := Option.some.inj hvalue
        omega
      · contradiction

theorem Writes.toNat {digits : Text} {n : Nat} (h : Writes 10 digits n) :
    (∀ c ∈ digits, isAsciiDigit c = true) ∧ Text.toNat digits = n := by
  induction h with
  | nil => exact ⟨nofun, rfl⟩
  | @snoc digits m c d h hc ih =>
    obtain ⟨hdigit, rfl⟩ := digitValue?_ten hc
    refine ⟨fun a ha => ?_, ?_⟩
    · rcases List.mem_append.1 ha with ha | ha
      · exact ih.1 a ha
      · exact List.mem_singleton.1 ha ▸ hdigit
    · rw [Text.toNat, List.foldl_append, ← Text.toNat, ih.2, Nat.mul_comm m 10]
      rfl

theorem Writes.isDigits {digits : Text} {n : Nat} (hne : digits ≠ []) (h : Writes 10 digits n) :
    IsDigits digits :=
  ⟨hne, h.toNat.1⟩

/-! ### Integers -/

theorem IsInteger.ne_nil {t : Text} {v : Int} (h : IsInteger t v) : t ≠ [] := by
  cases h with
  | decimal hsign hne h => exact List.append_ne_nil_of_right_ne_nil _ hne
  | based hradix hmark hne h => exact List.cons_ne_nil _ _

/-- An integer below 2^53 is read as the double that it is. -/
theorem IsInteger.trimmed? {t : Text} {v : Int} (h : IsInteger t v) (hv : v.natAbs < 2 ^ 53) :
    ∃ x, Literal.trimmed? t = some x ∧ x.toInt? = some v := by
  cases h with
  | @decimal sign digits n hsign hne h =>
    have hn : n < 2 ^ 53 := by
      split at hv <;> omega
    refine ⟨⟨decide (sign = ['-']), .ofNat n⟩, ?_, ?_⟩
    · rw [trimmed?_of_isDigits hsign (h.isDigits hne), h.toNat.2, ofDecimal_natural hn]
      rfl
    · rw [Double.toInt?_ofNat _ hn]
      simp only [decide_eq_true_eq]
  | @based radix mark digits n hradix hmark hne h =>
    have hn : n < 2 ^ 53 := hv
    refine ⟨⟨false, .ofNat n⟩, ?_, Double.toInt?_ofNat false hn⟩
    rw [Literal.trimmed?.eq_def, base?_mark hradix hmark]
    dsimp only
    rw [based?, if_neg (by simpa using hne),
      accumulate_of_writes (base_lt_of_mem_radices hradix) h hn]
    rfl

theorem IsInteger.number? {raw : Text} {v : Int} (h : IsInteger (Text.trim raw) v)
    (hv : v.natAbs < 2 ^ 53) : ∃ x, Literal.number? raw = some x ∧ x.toInt? = some v := by
  obtain ⟨x, hx, hint⟩ := h.trimmed? hv
  refine ⟨x, ?_, hint⟩
  unfold Literal.number?
  dsimp only
  rw [if_neg (by simpa using h.ne_nil), hx]

/-- Each digit behind a mark is read without rounding. -/
theorem IsInteger.readsExactly {radix : Radix} (hradix : radix ∈ radices) {mark c : Char}
    (hmark : mark ∈ radix.marks) {front back : Text} {v : Int}
    (h : IsInteger ('0' :: mark :: (front ++ c :: back)) v) (hv : v.natAbs < 2 ^ 53) :
    ReadsExactly radix.base front c := by
  generalize ht : '0' :: mark :: (front ++ c :: back) = t at h
  cases h with
  | decimal hsign hne h =>
    -- A decimal has no mark.
    have hnone := base?_signed hsign (isUnsigned_of_isDigits (h.isDigits hne))
    rw [← ht, base?_mark hradix hmark] at hnone
    contradiction
  | @based radix' mark' digits n hradix' hmark' hne h =>
    -- The text has one mark, and that mark one base.
    have hbase := base?_mark hradix hmark (front ++ c :: back)
    rw [ht, base?_mark hradix' hmark', Option.some.injEq, Prod.mk.injEq] at hbase
    obtain ⟨hbase, rfl⟩ := hbase
    rw [hbase] at h
    exact readsExactly_of_writes (base_lt_of_mem_radices hradix) h hv

end Literal
end PullPlan
