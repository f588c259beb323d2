import PullPlan.Proofs.Json.Numeral

/-!
# Steps of the JSON reader

`State.run` feeds a text to the reader, and `run_append` splits it. The lemmas below say what the
reader does on each kind of token: gaps (`run_gap`), the three words, numerals (`run_numeral`) and
quoted texts (`run_quote`, `run_key`).

The reader cannot see the end of a number before the character behind it, so it is not always done
when a value is complete. `State.Holds` covers both cases: `step_of_holds` and `finish?_of_holds`
say that the difference does not show.
-/

namespace PullPlan
namespace Json
namespace State

variable {stack : List Frame}

/-- The state after the characters of a text. -/
def run (s : State) (t : Text) : Option State := t.foldlM (fun s c => s.step (some c)) s

@[simp] theorem run_nil (s : State) : s.run [] = some s := rfl

theorem run_cons (s : State) (c : Char) (t : Text) :
    s.run (c :: t) = (s.step (some c)).bind fun s => s.run t := rfl

theorem run_append (s : State) (t u : Text) :
    s.run (t ++ u) = (s.run t).bind fun s => s.run u := by
  rw [run, List.foldlM_append]
  rfl

/-- The tree of a text is what the reader has after its last character. -/
theorem ofText?_eq_run (t : Text) : Tree.ofText? t = (start.run t).bind finish? := by
  rw [Tree.ofText?, Tree.ofUnits?, List.foldlM_map]
  rfl

/-! ### Gaps -/

/-- Whether blanks between tokens are skipped in a focus. -/
def skipsGaps : Focus → Bool
  | .value | .item | .member | .key _ | .colon _ _ | .done _ => true
  | _ => false

theorem step_gap {focus : Focus} (hfocus : skipsGaps focus = true) {c : Char}
    (hc : isGap c = true) : step ⟨stack, focus⟩ (some c) = some ⟨stack, focus⟩ := by
  cases focus <;> simp_all [skipsGaps, step, outsideString, afterValue]

theorem run_gap {focus : Focus} (hfocus : skipsGaps focus = true) {gap : Text}
    (hgap : ∀ c ∈ gap, isGap c = true) : run ⟨stack, focus⟩ gap = some ⟨stack, focus⟩ := by
  induction gap with
  | nil => rfl
  | cons c gap ih =>
    obtain ⟨hc, hgap⟩ := List.forall_mem_cons.1 hgap
    rw [run_cons, step_gap hfocus hc]
    exact ih hgap

/-- The first item of an array is read like any other value. -/
theorem run_item {c : Char} (hgap : isGap c = false) (hend : c ≠ ']') (t : Text) :
    run ⟨stack, .item⟩ (c :: t) = run ⟨stack, .value⟩ (c :: t) := by
  simp [run_cons, step, outsideString, hgap, hend]

/-! ### Complete values -/

/-- Whether a state has read a value completely: it is done, or nothing but more digits could change
the number that it has read. -/
def Holds (stack : List Frame) (tree : Tree) (s : State) : Prop :=
  s = ⟨stack, .done tree⟩ ∨
    ∃ characters n, s = ⟨stack, .number characters⟩ ∧
      Numeral.ofText? characters.reverse = some n ∧ tree = .number n

theorem step_of_holds {tree : Tree} {s : State} (h : Holds stack tree s) {c : Char}
    (hc : isNumberChar c = false) : s.step (some c) = afterValue stack tree c := by
  rcases h with rfl | ⟨characters, n, rfl, hn, rfl⟩
  · rfl
  · simp [step, outsideString, hc, hn]

theorem finish?_of_holds {tree : Tree} {s : State} (h : Holds [] tree s) :
    s.finish? = some tree := by
  rcases h with rfl | ⟨characters, n, rfl, hn, rfl⟩
  · rfl
  · simp [finish?, hn]

/-- A state that has read a value has read it also after a gap. -/
theorem run_gap_of_holds {tree : Tree} {s : State} (h : Holds stack tree s) {gap : Text}
    (hgap : ∀ c ∈ gap, isGap c = true) : ∃ s', s.run gap = some s' ∧ Holds stack tree s' := by
  cases gap with
  | nil => exact ⟨s, rfl, h⟩
  | cons c gap =>
    -- The first blank ends a number, and from there on the state is done.
    obtain ⟨hc, hgap⟩ := List.forall_mem_cons.1 hgap
    have hnumber : isNumberChar c = false := by
      simp only [isGap, Bool.or_eq_true, decide_eq_true_eq] at hc
      rcases hc with ((rfl | rfl) | rfl) | rfl <;> decide
    refine ⟨⟨stack, .done tree⟩, ?_, .inl rfl⟩
    rw [run_cons, step_of_holds h hnumber, afterValue.eq_def, if_pos hc]
    exact run_gap rfl hgap

/-- Gaps around a text that is a complete value do not change its tree. -/
theorem ofText?_of_holds {tree : Tree} {t : Text} {s : State} (hrun : start.run t = some s)
    (h : Holds [] tree s) {front tail : Text} (hfront : ∀ c ∈ front, isGap c = true)
    (htail : ∀ c ∈ tail, isGap c = true) : Tree.ofText? (front ++ t ++ tail) = some tree := by
  have hopen : start.run front = some start := run_gap rfl hfront
  obtain ⟨s', hs', h'⟩ := run_gap_of_holds h htail
  rw [ofText?_eq_run, run_append, run_append, hopen, Option.bind_some, hrun, Option.bind_some, hs',
    Option.bind_some, finish?_of_holds h']

/-! ### Numbers -/

theorem run_number {front t : Text} (h : ∀ c ∈ t, isNumberChar c = true) :
    run ⟨stack, .number front⟩ t = some ⟨stack, .number (t.reverse ++ front)⟩ := by
  induction t generalizing front with
  | nil => rfl
  | cons c t ih =>
    obtain ⟨hc, ht⟩ := List.forall_mem_cons.1 h
    have hstep : step ⟨stack, .number front⟩ (some c) = some ⟨stack, .number (c :: front)⟩ := by
      simp [step, outsideString, hc]
    rw [run_cons, hstep, Option.bind_some, ih ht, List.reverse_cons, List.append_assoc]
    rfl

theorem step_value_number {c : Char} (h : c = '-' ∨ isAsciiDigit c = true) :
    step ⟨stack, .value⟩ (some c) = some ⟨stack, .number [c]⟩ := by
  rcases h with rfl | h
  · rfl
  · have hne : ∀ d ∈ " \t\n\r\"[\x7btfn".toList, c ≠ d := ne_of_isAsciiDigit_of_all h (by decide)
    have hgap : isGap c = false := by
      simp only [isGap, hne ' ' (by decide), hne '\t' (by decide), hne '\n' (by decide),
        hne '\r' (by decide), decide_false, Bool.or_false]
    simp only [step, Option.bind_some, outsideString, hgap, Bool.false_eq_true, ↓reduceIte,
      openValue, hne '"' (by decide), hne '[' (by decide), hne '\x7b' (by decide),
      hne 't' (by decide), hne 'f' (by decide), hne 'n' (by decide), h, Bool.or_true]

/-- A numeral is read completely, up to the end that the reader cannot see yet. -/
theorem run_numeral {t : Text} {n : Numeral} (h : Numeral.ofText? t = some n) :
    ∃ s, run ⟨stack, .value⟩ t = some s ∧ Holds stack (.number n) s := by
  obtain ⟨c, rest, rfl, hc⟩ := Numeral.head_of_ofText? h
  have hrest : ∀ d ∈ rest, isNumberChar d = true := fun d hd =>
    Numeral.isNumberChar_of_ofText? h d (List.mem_cons_of_mem c hd)
  refine ⟨⟨stack, .number (rest.reverse ++ [c])⟩, ?_, .inr ⟨_, n, rfl, ?_, rfl⟩⟩
  · rw [run_cons, step_value_number hc, Option.bind_some, run_number hrest]
  · simpa using h

/-! ### Strings -/

theorem digitValue?_hexDigit {d : Nat} (h : d < 16) : digitValue? 16 (hexDigit d) = some d := by
  have hall : ∀ d : Fin 16, digitValue? 16 (hexDigit d.val) = some d.val := by decide
  exact hall ⟨d, h⟩

/-- The code of a character stands for that character: it is no half of a pair. -/
theorem codePiece_toNat (c : Char) : codePiece c.toNat = .char c := by
  -- The halves of pairs are just the codes that are no characters.
  have hvalid : c.toNat < 0xD800 ∨ (0xDFFF < c.toNat ∧ c.toNat < 0x110000) := c.valid
  have hhigh : isHighHalf c.toNat = false := by
    simp only [isHighHalf, Bool.and_eq_false_iff, decide_eq_false_iff_not]
    omega
  have hlow : isLowHalf c.toNat = false := by
    simp only [isLowHalf, Bool.and_eq_false_iff, decide_eq_false_iff_not]
    omega
  rw [codePiece, hhigh, hlow, Char.ofNat_toNat]
  rfl

/-- A character is read back as it was, whether it had to be escaped or not. -/
theorem run_escapeChar (role : Role) (pieces : List Piece) (c : Char) :
    run ⟨stack, .string role pieces⟩ (escapeChar c)
      = some ⟨stack, .string role (.char c :: pieces)⟩ := by
  rw [escapeChar]
  -- Seven characters have a letter of their own behind the backslash.
  split
  · subst_vars
    rfl
  split
  · subst_vars
    rfl
  split
  · subst_vars
    rfl
  split
  · subst_vars
    rfl
  split
  · subst_vars
    rfl
  split
  · subst_vars
    rfl
  split
  · subst_vars
    rfl
  split
  · -- A control character without a letter of its own is written by its code.
    have hhigh := digitValue?_hexDigit (d := c.toNat / 16) (by omega)
    have hlow := digitValue?_hexDigit (d := c.toNat % 16) (by omega)
    have hcode : 16 * (c.toNat / 16) + c.toNat % 16 = c.toNat := by omega
    have hu : run ⟨stack, .string role pieces⟩ "\\u00".toList
        = some ⟨stack, .code role pieces 2 0⟩ := rfl
    rw [run_append, hu]
    simp [run_cons, step, outsideString, hhigh, hlow, hcode, codePiece_toNat]
  · rename_i hquote hslash _ _ _ _ _ hcontrol
    simp [run_cons, step, inString, hquote, hslash, hcontrol]

theorem run_escapeChars (role : Role) (pieces : List Piece) (t : Text) :
    run ⟨stack, .string role pieces⟩ (t.flatMap escapeChar)
      = some ⟨stack, .string role ((t.map Piece.char).reverse ++ pieces)⟩ := by
  induction t generalizing pieces with
  | nil => rfl
  | cons c t ih =>
    rw [List.flatMap_cons, run_append, run_escapeChar, Option.bind_some, ih, List.map_cons,
      List.reverse_cons, List.append_assoc]
    rfl

/-- A quoted text is read up to its closing quote. -/
theorem run_string (role : Role) (t : Text) :
    run ⟨stack, .string role []⟩ (t.flatMap escapeChar ++ ['"'])
      = some (closeString stack (t.map Piece.char).reverse role) := by
  rw [run_append, run_escapeChars, List.append_nil]
  rfl

theorem run_quote (t : Text) :
    run ⟨stack, .value⟩ (quote t) = some ⟨stack, .done (.string (t.map .char))⟩ := by
  rw [quote, List.cons_append, run_cons]
  refine (run_string .value t).trans ?_
  rw [closeString, List.reverse_reverse]

/-! ### Arrays and objects -/

/-- A comma after an item, and the gap behind it. -/
theorem run_comma_item {items : List Tree} {tree : Tree} {s : State}
    (h : Holds (.array items :: stack) tree s) {gap : Text} (hgap : ∀ c ∈ gap, isGap c = true) :
    s.run (',' :: gap) = some ⟨.array (tree :: items) :: stack, .value⟩ := by
  rw [run_cons, step_of_holds h (by decide)]
  exact run_gap rfl hgap

/-- The end of an array after its last item. -/
theorem run_end_array {items : List Tree} {tree : Tree} {s : State}
    (h : Holds (.array items :: stack) tree s) {gap : Text} (hgap : ∀ c ∈ gap, isGap c = true) :
    s.run (gap ++ [']']) = some ⟨stack, .done (.array (items.reverse ++ [tree]))⟩ := by
  obtain ⟨s', hs', h'⟩ := run_gap_of_holds h hgap
  rw [run_append, hs', Option.bind_some, run_cons, step_of_holds h' (by decide),
    ← List.reverse_cons]
  rfl

/-- A comma after an entry, and the gap behind it. -/
theorem run_comma_entry {members : List (List Piece × Tree)} {key : List Piece} {tree : Tree}
    {s : State} (h : Holds (.object members key :: stack) tree s) {gap : Text}
    (hgap : ∀ c ∈ gap, isGap c = true) :
    s.run (',' :: gap) = some ⟨stack, .key ((key, tree) :: members)⟩ := by
  rw [run_cons, step_of_holds h (by decide)]
  exact run_gap rfl hgap

/-- The end of an object after its last entry. -/
theorem run_end_object {members : List (List Piece × Tree)} {key : List Piece} {tree : Tree}
    {s : State} (h : Holds (.object members key :: stack) tree s) {gap : Text}
    (hgap : ∀ c ∈ gap, isGap c = true) :
    s.run (gap ++ ['\x7d']) = some ⟨stack, .done (.object (members.reverse ++ [(key, tree)]))⟩ := by
  obtain ⟨s', hs', h'⟩ := run_gap_of_holds h hgap
  rw [run_append, hs', Option.bind_some, run_cons, step_of_holds h' (by decide),
    ← List.reverse_cons]
  rfl

/-- A key, its colon and the gap behind it. The first key is read like any other. -/
theorem run_key {focus : Focus} {members : List (List Piece × Tree)}
    (hfocus : focus = .key members ∨ (focus = .member ∧ members = [])) (key : Text) {gap : Text}
    (hgap : ∀ c ∈ gap, isGap c = true) :
    run ⟨stack, focus⟩ (quote key ++ ':' :: gap)
      = some ⟨.object members (key.map .char) :: stack, .value⟩ := by
  have hopen : step ⟨stack, focus⟩ (some '"') = some ⟨stack, .string (.key members) []⟩ := by
    rcases hfocus with rfl | ⟨rfl, rfl⟩ <;> rfl
  have hcolon : step ⟨stack, .colon members (key.map .char)⟩ (some ':')
      = some ⟨.object members (key.map .char) :: stack, .value⟩ := rfl
  rw [quote, List.cons_append, List.cons_append, run_cons, hopen, Option.bind_some, run_append,
    run_string, Option.bind_some, closeString, List.reverse_reverse, run_cons, hcolon]
  exact run_gap rfl hgap

end State
end Json
end PullPlan
