import Mathlib.Data.List.DropRight
import PullPlan.Proofs.Json.Token

/-!
# Which texts are which scalars

The value of a tree is of the tree's kind (`kind_of_value?`). So `null` and the truth values are
read from their words alone, whatever gaps stand around them (`ofText?_eq_null_iff`,
`ofText?_eq_bool_iff`), and numbers from number literals alone: of the texts that are JSON, exactly
those with a number as their tree are number literals (`Literal.number?_isSome_iff_of_ofText?`). The
first character that is no gap tells a number from all else, since the reader never leaves a number
again that it has begun outside of arrays and objects (`State.IsNumeric`).
-/

namespace PullPlan
namespace Json

/-! ### Kinds -/

/-- What a value is, up to what numbers, strings, arrays and objects hold. -/
inductive Kind where
  | null
  | bool (value : Bool)
  | number
  | string
  | array
  | object
  deriving DecidableEq

/-- The kind of a value. -/
def kind : Json → Kind
  | .null => .null
  | .bool b => .bool b
  | .integer _ | .float _ => .number
  | .string _ => .string
  | .array _ => .array
  | .object _ => .object

/-- The kind of a tree. -/
def Tree.kind : Tree → Kind
  | .null => .null
  | .bool b => .bool b
  | .number _ => .number
  | .string _ => .string
  | .array _ => .array
  | .object _ => .object

theorem kind_of_value? {tree : Tree} {depth : Nat} {v : Json} (h : tree.value? depth = some v) :
    v.kind = tree.kind := by
  cases tree with
  | null => exact Option.some.inj h ▸ rfl
  | bool b => exact Option.some.inj h ▸ rfl
  | number n =>
    obtain ⟨i, rfl⟩ | ⟨x, rfl⟩ := Numeral.value?_cases h
    · rfl
    · rfl
  | string pieces =>
    obtain ⟨t, -, rfl⟩ := Option.map_eq_some_iff.1 h
    rfl
  | array items =>
    cases depth with
    | zero => simp [Tree.value?] at h
    | succ depth =>
      obtain ⟨values, -, rfl⟩ := Option.map_eq_some_iff.1 h
      rfl
  | object members =>
    cases depth with
    | zero => simp [Tree.value?] at h
    | succ depth =>
      obtain ⟨entries, -, rfl⟩ := Option.map_eq_some_iff.1 h
      rfl

/-- Nothing but a number is of the kind of numbers. -/
theorem Tree.exists_number_of_kind {tree : Tree} (h : tree.kind = .number) :
    ∃ n, tree = .number n := by
  cases tree with
  | number n => exact ⟨n, rfl⟩
  | _ => contradiction

/-! ### Words -/

/-- A text without the gaps at its ends. -/
def stripGaps (t : Text) : Text := (t.dropWhile State.isGap).rdropWhile State.isGap

/-- A token that has no gaps at its ends is what is left when those around it are gone. -/
theorem stripGaps_eq_iff {token t : Text} (hne : token ≠ [])
    (hgap : ∀ c ∈ token, State.isGap c = false) : stripGaps t = token ↔ Wraps token t := by
  constructor
  · rintro rfl
    refine ⟨t.takeWhile State.isGap ++ stripGaps t,
      (t.dropWhile State.isGap).rtakeWhile State.isGap,
      ⟨_, rfl, fun c hc => List.mem_takeWhile_imp hc⟩, ?_, fun c hc => List.mem_rtakeWhile_imp hc⟩
    rw [stripGaps, List.append_assoc, List.rdropWhile_append_rtakeWhile,
      List.takeWhile_append_dropWhile]
  · rintro ⟨_, tail, ⟨front, rfl, hfront⟩, rfl, htail⟩
    obtain ⟨c, rest, rfl⟩ := List.exists_cons_of_ne_nil hne
    have hopen : ¬State.isGap c = true := by simp [hgap c List.mem_cons_self]
    have hlast : ∀ h : c :: rest ≠ [], ¬State.isGap ((c :: rest).getLast h) = true := fun h => by
      simp [hgap _ (List.getLast_mem h)]
    have htail' : ∀ d ∈ tail.reverse, State.isGap d = true := fun d hd =>
      htail d (List.mem_reverse.1 hd)
    rw [stripGaps, List.append_assoc, List.dropWhile_append_of_pos hfront, List.cons_append,
      List.dropWhile_cons_of_neg hopen, ← List.cons_append, List.rdropWhile, List.reverse_append,
      List.dropWhile_append_of_pos htail', ← List.rdropWhile, List.rdropWhile_eq_self_iff.2 hlast]

/-- A value that is read from one word alone is read from that word between gaps. -/
theorem ofText?_eq_word_iff {word t : Text} {tree : Tree} {v : Json}
    (hrun : State.start.run word = some ⟨[], .done tree⟩)
    (htoken : ∀ token, IsToken token tree ↔ token = word)
    (hvalue : ∀ tree', tree'.value? depthLimit = some v ↔ tree' = tree) (hne : word ≠ [])
    (hgap : (word.all fun c => !State.isGap c) = true) :
    ofText? t = some v ↔ stripGaps t = word := by
  have hgap' : ∀ c ∈ word, State.isGap c = false := fun c hc =>
    Bool.not_eq_true' _ ▸ List.all_eq_true.1 hgap c hc
  rw [stripGaps_eq_iff hne hgap', ofText?, Option.bind_eq_bind, Option.bind_eq_some_iff]
  simp only [hvalue, exists_eq_right]
  constructor
  · intro h
    obtain ⟨token, hwraps, hword⟩ := exists_token_of_ofText? h
    exact (htoken token).1 hword ▸ hwraps
  · rintro ⟨_, tail, ⟨front, rfl, hfront⟩, rfl, htail⟩
    exact State.ofText?_of_holds hrun (.inl rfl) hfront htail

theorem ofText?_eq_null_iff {t : Text} : ofText? t = some .null ↔ stripGaps t = "null".toList := by
  have hrun : State.start.run "null".toList = some ⟨[], .done .null⟩ := rfl
  refine ofText?_eq_word_iff hrun (fun _ => Iff.rfl) (fun tree => ⟨fun h => ?_, ?_⟩) (by decide)
    (by decide)
  · have hkind := kind_of_value? h
    cases tree with
    | null => rfl
    | _ => contradiction
  · rintro rfl
    rfl

/-- The word of a truth value. -/
def boolWord (b : Bool) : Text := if b then "true".toList else "false".toList

theorem ofText?_eq_bool_iff {t : Text} {b : Bool} :
    ofText? t = some (.bool b) ↔ stripGaps t = boolWord b := by
  have hrun : State.start.run (boolWord b) = some ⟨[], .done (.bool b)⟩ := by cases b <;> rfl
  have htoken : ∀ token, IsToken token (.bool b) ↔ token = boolWord b := fun _ => by
    cases b <;> exact Iff.rfl
  refine ofText?_eq_word_iff hrun htoken (fun tree => ⟨fun h => ?_, ?_⟩) (by cases b <;> decide)
    (by cases b <;> decide)
  · have hkind := kind_of_value? h
    cases tree with
    | bool b' => exact congrArg Tree.bool (Kind.bool.inj hkind).symm
    | _ => contradiction
  · rintro rfl
    rfl

/-! ### Numbers -/

namespace State

/-- Whether a state has begun a number outside of arrays and objects. -/
inductive IsNumeric : State → Prop
  | number (characters : Text) : IsNumeric ⟨[], .number characters⟩
  | done (n : Numeral) : IsNumeric ⟨[], .done (.number n)⟩

/-- Outside of arrays and objects nothing but a gap follows a value. -/
theorem eq_of_afterValue_nil {tree : Tree} {c : Char} {s : State}
    (h : afterValue [] tree c = some s) : s = ⟨[], .done tree⟩ := by
  rw [afterValue] at h
  split at h
  · exact (Option.some.inj h).symm
  · contradiction

theorem IsNumeric.step {s s' : State} (h : s.IsNumeric) {c : Char}
    (hstep : s.step (some c) = some s') : s'.IsNumeric := by
  cases h with
  | number characters =>
    simp only [State.step, Option.bind_some, outsideString] at hstep
    split at hstep
    · exact Option.some.inj hstep ▸ .number _
    · obtain ⟨n, -, hafter⟩ := Option.bind_eq_some_iff.1 hstep
      exact eq_of_afterValue_nil hafter ▸ .done n
  | done n =>
    have hafter : afterValue [] (.number n) c = some s' := hstep
    exact eq_of_afterValue_nil hafter ▸ .done n

theorem IsNumeric.run {s s' : State} (h : s.IsNumeric) {t : Text} (hrun : s.run t = some s') :
    s'.IsNumeric := by
  induction t generalizing s with
  | nil => exact Option.some.inj hrun ▸ h
  | cons c t ih =>
    obtain ⟨next, hstep, hrun⟩ := Option.bind_eq_some_iff.1 hrun
    exact ih (h.step hstep) hrun

theorem IsNumeric.finish? {s : State} (h : s.IsNumeric) {tree : Tree}
    (hfinish : s.finish? = some tree) : ∃ n, tree = .number n := by
  cases h with
  | number characters =>
    obtain ⟨n, -, rfl⟩ := Option.map_eq_some_iff.1 hfinish
    exact ⟨n, rfl⟩
  | done n => exact ⟨n, (Option.some.inj hfinish).symm⟩

/-- Behind its gap, a text that is JSON starts with the first character of a value. -/
theorem exists_openValue_of_ofText? {t : Text} {tree : Tree} (h : Tree.ofText? t = some tree) :
    ∃ gap c rest s, t = gap ++ c :: rest ∧ (∀ d ∈ gap, isGap d = true) ∧
      openValue [] c = some s ∧ (s.run rest).bind State.finish? = some tree := by
  -- The gap is skipped, and behind it there has to be something.
  obtain ⟨ht, hgap, hrest⟩ := Text.run_iff (p := isGap) (t := t).1 ⟨rfl, rfl⟩
  generalize t.takeWhile isGap = gap at ht hgap
  generalize t.dropWhile isGap = rest at ht hrest
  subst ht
  have hopen : start.run gap = some start := run_gap rfl hgap
  rw [ofText?_eq_run, run_append, hopen, Option.bind_some] at h
  cases rest with
  | nil => exact absurd h (Option.some_ne_none tree).symm
  | cons c rest =>
    have hstep : start.step (some c) = openValue [] c := by
      simp [start, State.step, outsideString, hrest c rfl]
    rw [run_cons, hstep] at h
    cases hvalue : openValue [] c with
    | none => simp [hvalue] at h
    | some s =>
      rw [hvalue, Option.bind_some] at h
      exact ⟨gap, c, rest, s, rfl, hgap, hvalue, h⟩

/-- What starts a value starts a number, or it is printed and starts no literal. -/
theorem openValue_nil_cases {c : Char} {s : State} (h : openValue [] c = some s) :
    (isPrinted c = true ∧ Literal.startsLiteral c = false) ∨ s.IsNumeric := by
  rw [openValue] at h
  split_ifs at h with h₁ h₂ h₃ h₄ h₅ h₆
  · exact .inl (h₁ ▸ by decide)
  · exact .inl (h₂ ▸ by decide)
  · exact .inl (h₃ ▸ by decide)
  · exact .inl (h₄ ▸ by decide)
  · exact .inl (h₅ ▸ by decide)
  · exact .inl (h₆ ▸ by decide)
  · exact .inr (Option.some.inj h ▸ .number [c])

end State
end Json

namespace Literal

/-- **Of the texts that are JSON, exactly the numbers are number literals.** -/
theorem number?_isSome_iff_of_ofText? {t : Text} {tree : Json.Tree}
    (h : Json.Tree.ofText? t = some tree) :
    (number? t).isSome = true ↔ ∃ n, tree = .number n := by
  constructor
  · intro hsome
    obtain ⟨gap, c, rest, s, rfl, hgap, hopen, hfinish⟩ := Json.State.exists_openValue_of_ofText? h
    rcases Json.State.openValue_nil_cases hopen with ⟨hprinted, hstart⟩ | hnumeric
    · have hnone : number? (gap ++ c :: rest) = none := by
        rw [number?, Text.trim_front_append fun d hd => isBlank_of_isGap (hgap d hd)]
        exact number?_eq_none (isBlank_of_isPrinted hprinted) hstart
      rw [hnone] at hsome
      contradiction
    · obtain ⟨final, hrun, hfinal⟩ := Option.bind_eq_some_iff.1 hfinish
      exact (hnumeric.run hrun).finish? hfinal
  · rintro ⟨n, rfl⟩
    exact number?_isSome_of_ofText? h

theorem number?_isSome_iff_kind {t : Text} {v : Json} (h : Json.ofText? t = some v) :
    (number? t).isSome = true ↔ v.kind = .number := by
  obtain ⟨tree, htree, hvalue⟩ := Option.bind_eq_some_iff.1 h
  rw [number?_isSome_iff_of_ofText? htree, Json.kind_of_value? hvalue]
  constructor
  · rintro ⟨n, rfl⟩
    rfl
  · exact Json.Tree.exists_number_of_kind

end Literal
end PullPlan
