import PullPlan.Text.Utf8

/-!
# Texts come back from their bytes

Each character is encoded as one sequence of one to four bytes. `units_of_one` to `units_of_four`
say how `Utf8.units` reads a well-formed sequence of each length, whatever follows, and the bytes of
a character form one (`units_encodeChar`). So the encoding of a text is read as its characters
(`units_encode`), and the text is decoded from it (`decode?_encode`).

Bytes compare like the characters that they encode (`encodeChar_append_lt`), so the order of texts
is the order of their bytes (`encode_lt_iff`).
-/

namespace PullPlan
namespace Utf8

/-! ### Bytes -/

/-- A continuation carries six bits. -/
theorem isTail_ofNat {k : Nat} (h : k < 64) : isTail (UInt8.ofNat (k + 128)) = true := by
  have hall : ∀ k : Fin 64, isTail (UInt8.ofNat (k.val + 128)) = true := by decide
  exact hall ⟨k, h⟩

theorem payload_ofNat {k : Nat} (h : k < 64) : payload (UInt8.ofNat (k + 128)) = k := by
  have hall : ∀ k : Fin 64, payload (UInt8.ofNat (k.val + 128)) = k.val := by decide
  exact hall ⟨k, h⟩

theorem tailLength?_zero {k : Nat} (h : k < 128) : tailLength? (UInt8.ofNat k) = some 0 := by
  have hall : ∀ k : Fin 128, tailLength? (UInt8.ofNat k.val) = some 0 := by decide
  exact hall ⟨k, h⟩

theorem tailLength?_one {k : Nat} (hlow : 2 ≤ k) (hhigh : k < 32) :
    tailLength? (UInt8.ofNat (k + 192)) = some 1 := by
  have hall : ∀ k : Fin 32, 2 ≤ k.val → tailLength? (UInt8.ofNat (k.val + 192)) = some 1 := by
    decide
  exact hall ⟨k, hhigh⟩ hlow

theorem tailLength?_two {k : Nat} (h : k < 16) :
    tailLength? (UInt8.ofNat (k + 224)) = some 2 := by
  have hall : ∀ k : Fin 16, tailLength? (UInt8.ofNat (k.val + 224)) = some 2 := by decide
  exact hall ⟨k, h⟩

theorem tailLength?_three {k : Nat} (h : k < 5) :
    tailLength? (UInt8.ofNat (k + 240)) = some 3 := by
  have hall : ∀ k : Fin 5, tailLength? (UInt8.ofNat (k.val + 240)) = some 3 := by decide
  exact hall ⟨k, h⟩

theorem toNat_ofNat {k : Nat} (h : k < 256) : (UInt8.ofNat k).toNat = k := by
  rw [UInt8.toNat_ofNat']
  omega

theorem isSecond_ofNat {a : UInt8} {low high k : Nat}
    (hrange : secondRange a = (UInt8.ofNat (low + 128), UInt8.ofNat (high + 128)))
    (hlow : low ≤ k) (hhigh : k ≤ high) (h : high < 64) :
    isSecond a (UInt8.ofNat (k + 128)) = true := by
  rw [isSecond, hrange]
  simp only [UInt8.le_iff_toNat_le, Bool.and_eq_true, decide_eq_true_eq]
  rw [toNat_ofNat (by omega), toNat_ofNat (by omega), toNat_ofNat (by omega)]
  omega

theorem isSecond_one {k l : Nat} (hk : k < 32) (hl : l < 64) :
    isSecond (UInt8.ofNat (k + 192)) (UInt8.ofNat (l + 128)) = true := by
  have hrange : ∀ k : Fin 32, secondRange (UInt8.ofNat (k.val + 192))
      = (UInt8.ofNat (0 + 128), UInt8.ofNat (63 + 128)) := by
    decide
  exact isSecond_ofNat (hrange ⟨k, hk⟩) (by omega) (by omega) (by omega)

/-- Behind the first byte of three, shorter forms and the halves of pairs are left out. -/
theorem isSecond_two {k l : Nat} (hk : k < 16) (hl : l < 64) (hshort : k = 0 → 32 ≤ l)
    (hhalf : k = 13 → l < 32) :
    isSecond (UInt8.ofNat (k + 224)) (UInt8.ofNat (l + 128)) = true := by
  have hrange : ∀ k : Fin 16, secondRange (UInt8.ofNat (k.val + 224))
      = (UInt8.ofNat ((if k.val = 0 then 32 else 0) + 128),
          UInt8.ofNat ((if k.val = 13 then 31 else 63) + 128)) := by
    decide
  refine isSecond_ofNat (hrange ⟨k, hk⟩) ?_ ?_ ?_ <;> dsimp only <;> split <;> omega

/-- Behind the first byte of four, shorter forms and what is above the last character are left
out. -/
theorem isSecond_three {k l : Nat} (hk : k < 5) (hl : l < 64) (hshort : k = 0 → 16 ≤ l)
    (hlast : k = 4 → l < 16) : isSecond (UInt8.ofNat (k + 240)) (UInt8.ofNat (l + 128)) = true := by
  have hrange : ∀ k : Fin 5, secondRange (UInt8.ofNat (k.val + 240))
      = (UInt8.ofNat ((if k.val = 0 then 16 else 0) + 128),
          UInt8.ofNat ((if k.val = 4 then 15 else 63) + 128)) := by
    decide
  refine isSecond_ofNat (hrange ⟨k, hk⟩) ?_ ?_ ?_ <;> dsimp only <;> split <;> omega

/-! ### Sequences -/

section

variable {a b c d : UInt8}

theorem units_of_one (hlength : tailLength? a = some 0) (rest : Bytes) :
    units (a :: rest) = some (Char.ofNat a.toNat) :: units rest := by
  rw [units.eq_def]
  simp only [hlength]

theorem units_of_two (hlength : tailLength? a = some 1) (hsecond : isSecond a b = true)
    (rest : Bytes) :
    units (a :: b :: rest)
      = some (Char.ofNat (a.toNat % 32 * 64 + payload b)) :: units rest := by
  rw [units.eq_def]
  simp [hlength, hsecond]

theorem units_of_three (hlength : tailLength? a = some 2) (hsecond : isSecond a b = true)
    (hthird : isTail c = true) (rest : Bytes) :
    units (a :: b :: c :: rest)
      = some (Char.ofNat (a.toNat % 16 * 4096 + payload b * 64 + payload c)) :: units rest := by
  rw [units.eq_def]
  simp [hlength, hsecond, hthird]

theorem units_of_four (hlength : tailLength? a = some 3) (hsecond : isSecond a b = true)
    (hthird : isTail c = true) (hfourth : isTail d = true) (rest : Bytes) :
    units (a :: b :: c :: d :: rest)
      = some (Char.ofNat (a.toNat % 8 * 262144 + payload b * 4096 + payload c * 64 + payload d))
          :: units rest := by
  rw [units.eq_def]
  simp [hlength, hsecond, hthird, hfourth]

end

/-! ### Characters -/

/-- The bytes of a character are read as one unit, whatever stands behind them. -/
theorem units_encodeChar (c : Char) (rest : Bytes) :
    units (String.utf8EncodeChar c ++ rest) = some c :: units rest := by
  -- No character is half of a pair or above U+10FFFF, which is what `isSecond` leaves out.
  have hvalid : c.toNat < 0xD800 ∨ (0xDFFF < c.toNat ∧ c.toNat < 0x110000) := c.valid
  have hval : c.val.toNat = c.toNat := rfl
  have hmod : ∀ n : Nat, n % 64 < 64 := fun n => Nat.mod_lt n (by decide)
  rw [String.utf8EncodeChar.eq_def, hval]
  dsimp only
  by_cases hone : c.toNat ≤ 127
  · rw [if_pos hone, List.cons_append, List.nil_append, units_of_one (tailLength?_zero (by omega)),
      toNat_ofNat (by omega), Char.ofNat_toNat]
  rw [if_neg hone]
  by_cases htwo : c.toNat ≤ 2047
  · have hcode : (c.toNat / 64 % 32 + 192) % 32 * 64 + c.toNat % 64 = c.toNat := by omega
    rw [if_pos htwo, List.cons_append, List.cons_append, List.nil_append,
      units_of_two (tailLength?_one (by omega) (by omega)) (isSecond_one (by omega) (hmod _)),
      payload_ofNat (hmod _), toNat_ofNat (by omega), hcode, Char.ofNat_toNat]
  rw [if_neg htwo]
  by_cases hthree : c.toNat ≤ 65535
  · have hcode : (c.toNat / 4096 % 16 + 224) % 16 * 4096 + c.toNat / 64 % 64 * 64 + c.toNat % 64
        = c.toNat := by omega
    rw [if_pos hthree, List.cons_append, List.cons_append, List.cons_append, List.nil_append,
      units_of_three (tailLength?_two (by omega))
        (isSecond_two (by omega) (hmod _) (by omega) (by omega)) (isTail_ofNat (hmod _)),
      payload_ofNat (hmod _), payload_ofNat (hmod _), toNat_ofNat (by omega), hcode,
      Char.ofNat_toNat]
  · have hcode : (c.toNat / 262144 % 8 + 240) % 8 * 262144 + c.toNat / 4096 % 64 * 4096
        + c.toNat / 64 % 64 * 64 + c.toNat % 64 = c.toNat := by omega
    rw [if_neg hthree, List.cons_append, List.cons_append, List.cons_append, List.cons_append,
      List.nil_append,
      units_of_four (tailLength?_three (by omega))
        (isSecond_three (by omega) (hmod _) (by omega) (by omega)) (isTail_ofNat (hmod _))
        (isTail_ofNat (hmod _)),
      payload_ofNat (hmod _), payload_ofNat (hmod _), payload_ofNat (hmod _),
      toNat_ofNat (by omega), hcode, Char.ofNat_toNat]

theorem units_encode (t : Text) : units (encode t) = t.map some := by
  induction t with
  | nil => rfl
  | cons c t ih =>
    show units (String.utf8EncodeChar c ++ encode t) = _
    rw [units_encodeChar, ih, List.map_cons]

/-- **A text is decoded from its encoding.** -/
theorem decode?_encode (t : Text) : decode? (encode t) = some t := by
  have hall : ∀ t : Text, (t.map some).mapM id = some t := by
    intro t
    induction t with
    | nil => rfl
    | cons c t ih =>
      rw [List.map_cons, List.mapM_cons, ih]
      rfl
  rw [decode?, units_encode, hall]

/-- Different texts have different bytes. -/
theorem encode_inj {t u : Text} : encode t = encode u ↔ t = u := by
  refine ⟨fun h => ?_, congrArg encode⟩
  have hdecode := decode?_encode t
  rw [h, decode?_encode] at hdecode
  exact (Option.some.inj hdecode).symm

/-! ### Order -/

/-- Two lists of bytes compare by their first bytes, and behind equal ones by the rest. -/
theorem cons_lt_cons {k l : Nat} (hl : l < 256) (hle : k ≤ l) {bytes bytes' : Bytes}
    (hrest : k = l → bytes < bytes') : UInt8.ofNat k :: bytes < UInt8.ofNat l :: bytes' := by
  rw [List.cons_lt_cons_iff, UInt8.lt_iff_toNat_lt, toNat_ofNat hl, toNat_ofNat (by omega)]
  rcases Nat.lt_or_eq_of_le hle with hlt | rfl
  · exact .inl hlt
  · exact .inr ⟨rfl, hrest rfl⟩

theorem cons_lt_cons_of_lt {k l : Nat} (hl : l < 256) (hlt : k < l) (bytes bytes' : Bytes) :
    UInt8.ofNat k :: bytes < UInt8.ofNat l :: bytes' :=
  cons_lt_cons hl (Nat.le_of_lt hlt) fun heq => absurd heq (Nat.ne_of_lt hlt)

/-- Characters compare like their bytes, whatever stands behind them: a longer sequence has a larger
first byte, and in sequences of one length the digits of the code stand in order. -/
theorem encodeChar_append_lt {c d : Char} (h : c < d) (bytes bytes' : Bytes) :
    String.utf8EncodeChar c ++ bytes < String.utf8EncodeChar d ++ bytes' := by
  have hlt : c.val.toNat < d.val.toNat := h
  have hlast : d.val.toNat < 0x110000 := by
    rcases d.valid with h | h <;> omega
  rw [String.utf8EncodeChar.eq_def, String.utf8EncodeChar.eq_def]
  generalize c.val.toNat = m at hlt
  generalize d.val.toNat = n at hlt hlast
  dsimp only
  -- One case for each length of the smaller sequence; the larger character has no shorter one.
  by_cases hone : m ≤ 127
  · rw [if_pos hone]
    split
    · exact cons_lt_cons_of_lt (by omega) hlt _ _
    · split
      · exact cons_lt_cons_of_lt (by omega) (by omega) _ _
      · split <;> exact cons_lt_cons_of_lt (by omega) (by omega) _ _
  rw [if_neg hone, if_neg (by omega : ¬n ≤ 127)]
  by_cases htwo : m ≤ 2047
  · rw [if_pos htwo]
    split
    · refine cons_lt_cons (by omega) (by omega) fun hfirst => ?_
      exact cons_lt_cons_of_lt (by omega) (by omega) _ _
    · split <;> exact cons_lt_cons_of_lt (by omega) (by omega) _ _
  rw [if_neg htwo, if_neg (by omega : ¬n ≤ 2047)]
  by_cases hthree : m ≤ 65535
  · rw [if_pos hthree]
    split
    · refine cons_lt_cons (by omega) (by omega) fun hfirst => ?_
      refine cons_lt_cons (by omega) (by omega) fun hsecond => ?_
      exact cons_lt_cons_of_lt (by omega) (by omega) _ _
    · exact cons_lt_cons_of_lt (by omega) (by omega) _ _
  · rw [if_neg hthree, if_neg (by omega : ¬n ≤ 65535)]
    refine cons_lt_cons (by omega) (by omega) fun hfirst => ?_
    refine cons_lt_cons (by omega) (by omega) fun hsecond => ?_
    refine cons_lt_cons (by omega) (by omega) fun hthird => ?_
    exact cons_lt_cons_of_lt (by omega) (by omega) _ _

theorem encode_lt_encode {t u : Text} (h : t < u) : encode t < encode u := by
  induction t generalizing u with
  | nil =>
    cases u with
    | nil => exact absurd h (List.lt_irrefl _)
    | cons d u =>
      show [] < String.utf8EncodeChar d ++ encode u
      obtain ⟨b, bytes, hcons⟩ := List.exists_cons_of_ne_nil (@String.utf8EncodeChar_ne_nil d)
      rw [hcons]
      exact List.nil_lt_cons _ _
  | cons c t ih =>
    cases u with
    | nil => exact absurd h (List.not_lt_nil _)
    | cons d u =>
      rcases List.cons_lt_cons_iff.1 h with hlt | ⟨rfl, hlt⟩
      · exact encodeChar_append_lt hlt _ _
      · exact List.append_left_lt (ih hlt)

/-- **Texts are in the order of their bytes.** -/
theorem encode_lt_iff {t u : Text} : encode t < encode u ↔ t < u := by
  -- Both orders are total, so that one direction gives the other.
  refine ⟨fun h => Decidable.byContradiction fun hnot => ?_, encode_lt_encode⟩
  rcases List.le_iff_lt_or_eq.1 (List.not_lt.1 hnot) with hlt | rfl
  · exact List.lt_irrefl _ (List.lt_trans h (encode_lt_encode hlt))
  · exact List.lt_irrefl _ h

end Utf8
end PullPlan
