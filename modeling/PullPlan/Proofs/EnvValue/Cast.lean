import PullPlan.EnvValue.Cast
import PullPlan.Proofs.Json.Layout
import PullPlan.Proofs.Json.Scalar

/-!
# Which values the cast yields

`EnvValue.ofText` tries number literals first and JSON second. The words `true` and `false` are no
literals and read as JSON, so the step that tests for them changes nothing (`ofText_of_ofText?`).
That leaves four steps which may yield the value, each with its guard (`cascade_ofText`).

A value that the cast yields is never a structured scalar (`isRead_ofText`): a text that reads as a
JSON number is a literal (`Literal.number?_isSome_iff_kind`), and the other scalars have
constructors of their own.
-/

namespace PullPlan

/-- Whether a JSON value is an array or an object. -/
def Json.isContainer : Json → Bool
  | .array _ | .object _ => true
  | _ => false

namespace EnvValue

/-- The value that a JSON value stands for, unless it is a number. -/
def ofJson : Json → EnvValue
  | .null => .null
  | .bool b => .bool b
  | .string t => .text t
  | v => .structured v

/-! ### The steps of the cast -/

theorem ofText_of_number? {raw : Text} {x : Double} (hne : raw ≠ [])
    (h : Literal.number? raw = some x) : ofText raw = .number x := by
  have htrue : raw ≠ "true".toList := by
    rintro rfl
    have hnone : Literal.number? "true".toList = none := by decide
    rw [hnone] at h
    contradiction
  have hfalse : raw ≠ "false".toList := by
    rintro rfl
    have hnone : Literal.number? "false".toList = none := by decide
    rw [hnone] at h
    contradiction
  unfold ofText
  rw [if_neg (by simpa using hne), if_neg htrue, if_neg hfalse, h]

theorem ofText_of_ofText? {raw : Text} {v : Json} (hnumber : Literal.number? raw = none)
    (h : Json.ofText? raw = some v) : ofText raw = ofJson v := by
  have hne : raw ≠ [] := by
    rintro rfl
    contradiction
  unfold ofText
  rw [if_neg (by simpa using hne)]
  split_ifs with htrue hfalse
  · subst htrue
    obtain rfl : Json.bool true = v := Option.some.inj h
    rfl
  · subst hfalse
    obtain rfl : Json.bool false = v := Option.some.inj h
    rfl
  · rw [hnumber, h]
    cases v <;> rfl

theorem ofText_of_eq_none {raw : Text} (hnumber : Literal.number? raw = none)
    (h : Json.ofText? raw = none) : ofText raw = .text raw := by
  have hne : raw ≠ [] := by
    rintro rfl
    contradiction
  have htrue : raw ≠ "true".toList := by
    rintro rfl
    contradiction
  have hfalse : raw ≠ "false".toList := by
    rintro rfl
    contradiction
  unfold ofText
  rw [if_neg (by simpa using hne), if_neg htrue, if_neg hfalse, hnumber, h]

/-- Which step of the cast yields a value. -/
inductive Cascade (raw : Text) : EnvValue → Prop
  | absent (h : raw = []) : Cascade raw .absent
  | number {x : Double} (hne : raw ≠ []) (h : Literal.number? raw = some x)
    (hjson : ∀ v, Json.ofText? raw = some v → v.kind = .number) : Cascade raw (.number x)
  | json {v : Json} (hne : raw ≠ []) (hnumber : Literal.number? raw = none)
    (h : Json.ofText? raw = some v) (hkind : v.kind ≠ .number) : Cascade raw (ofJson v)
  | text (hne : raw ≠ []) (hnumber : Literal.number? raw = none) (h : Json.ofText? raw = none) :
    Cascade raw (.text raw)

theorem cascade_ofText (raw : Text) : Cascade raw (ofText raw) := by
  by_cases hne : raw = []
  · subst hne
    exact .absent rfl
  cases hnumber : Literal.number? raw with
  | some x =>
    rw [ofText_of_number? hne hnumber]
    refine .number hne hnumber fun v hv => ?_
    rw [← Literal.number?_isSome_iff_kind hv, hnumber]
    rfl
  | none =>
    cases hjson : Json.ofText? raw with
    | some v =>
      rw [ofText_of_ofText? hnumber hjson]
      refine .json hne hnumber hjson ?_
      rw [ne_eq, ← Literal.number?_isSome_iff_kind hjson, hnumber]
      exact Bool.false_ne_true
    | none =>
      rw [ofText_of_eq_none hnumber hjson]
      exact .text hne hnumber hjson

/-! ### Structured values -/

/-- Whether the cast could yield a value: a structured value is an array or an object as the JSON
reader yields it. -/
def IsRead : EnvValue → Prop
  | .structured v => v.isContainer = true ∧ v.IsNormal Json.depthLimit
  | _ => True

theorem isRead_ofJson {v : Json} (hnormal : v.IsNormal Json.depthLimit)
    (hkind : v.kind ≠ .number) : (ofJson v).IsRead := by
  cases v with
  | null => trivial
  | bool b => trivial
  | string t => trivial
  | integer i => exact absurd rfl hkind
  | float x => exact absurd rfl hkind
  | array items => exact ⟨rfl, hnormal⟩
  | object entries => exact ⟨rfl, hnormal⟩

/-- **A structured value is an array or an object.** No text is cast to anything else, since a JSON
number is a number literal before it is JSON. -/
theorem isRead_ofText (raw : Text) : (ofText raw).IsRead := by
  have h := cascade_ofText raw
  generalize ofText raw = value at h ⊢
  cases h with
  | absent h => trivial
  | number hne h hjson => trivial
  | json hne hnumber h hkind =>
    obtain ⟨tree, htree, hvalue⟩ := Option.bind_eq_some_iff.1 h
    exact isRead_ofJson (Json.isNormal_of_value? tree hvalue) hkind
  | text hne hnumber h => trivial

end EnvValue
end PullPlan
