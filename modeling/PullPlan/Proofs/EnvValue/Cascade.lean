import PullPlan.Proofs.EnvValue.Cast
import PullPlan.Proofs.Json.Scalar

/-!
# Which text is cast to which value

`EnvValue.Stands` says of each value which texts stand for it, and `EnvValue.ofText_eq_iff` that the
cast yields just that value. Literals and JSON overlap in numbers alone, and there the literal has
the last word; so each of the other kinds has a description that does not mention the steps before
it.
-/

namespace PullPlan
namespace EnvValue

/-- Whether a text stands for nothing but itself. -/
structure IsPlain (raw : Text) : Prop where
  ne_nil : raw ≠ []
  number?_eq_none : Literal.number? raw = none
  ne_null : Json.stripGaps raw ≠ "null".toList
  ne_bool : ∀ b, Json.stripGaps raw ≠ Json.boolWord b
  ne_string : ∀ s, Json.ofText? raw ≠ some (.string s)
  ne_container : ∀ v : Json, v.isContainer = true → Json.ofText? raw ≠ some v

/-- Whether a text stands for a value. -/
def Stands (raw : Text) : EnvValue → Prop
  | .absent => raw = []
  | .number x => raw ≠ [] ∧ Literal.number? raw = some x
  | .bool b => Json.stripGaps raw = Json.boolWord b
  | .null => Json.stripGaps raw = "null".toList
  | .structured v => v.isContainer = true ∧ Json.ofText? raw = some v
  | .text s => Json.ofText? raw = some (.string s) ∨ (IsPlain raw ∧ s = raw)

/-! ### One value each -/

theorem ofJson_injective {v w : Json} (h : ofJson v = ofJson w) : v = w := by
  cases v <;> cases w <;> simp_all [ofJson]

theorem ofText_eq_absent_iff {raw : Text} : ofText raw = .absent ↔ raw = [] := by
  have h := cascade_ofText raw
  generalize ofText raw = value at h ⊢
  cases h with
  | absent h => simp [h]
  | number hne h hjson => simp [hne]
  | @json v hne hnumber h hkind => cases v <;> simp [ofJson, hne]
  | text hne hnumber h => simp [hne]

theorem ofText_eq_number_iff {raw : Text} {x : Double} :
    ofText raw = .number x ↔ raw ≠ [] ∧ Literal.number? raw = some x := by
  have h := cascade_ofText raw
  generalize ofText raw = value at h ⊢
  cases h with
  | absent h => simp [h]
  | number hne h hjson => simp [hne, h]
  | @json v hne hnumber h hkind => cases v <;> simp [ofJson, hnumber]
  | text hne hnumber h => simp [hnumber]

/-- What is neither a number nor a string is cast to what the JSON is. -/
theorem ofText_eq_ofJson_iff {raw : Text} (v : Json) (hnumber : v.kind ≠ .number)
    (hstring : v.kind ≠ .string) : ofText raw = ofJson v ↔ Json.ofText? raw = some v := by
  have h := cascade_ofText raw
  generalize ofText raw = value at h ⊢
  cases h with
  | absent h =>
    subst h
    have hjson : Json.ofText? [] = none := rfl
    cases v <;> simp [ofJson, hjson]
  | number hne h hjson =>
    have hne' : Json.ofText? raw ≠ some v := fun hv => hnumber (hjson v hv)
    cases v <;> simp [ofJson, hne']
  | json hne hnumber' h hkind =>
    rw [h, Option.some.injEq]
    exact ⟨ofJson_injective, congrArg ofJson⟩
  | text hne hnumber' h =>
    rw [h]
    cases v with
    | string s => exact absurd rfl hstring
    | _ => simp [ofJson]

theorem ofText_eq_structured_iff {raw : Text} {v : Json} :
    ofText raw = .structured v ↔ v.isContainer = true ∧ Json.ofText? raw = some v := by
  have hcast : v.isContainer = true →
      (ofText raw = .structured v ↔ Json.ofText? raw = some v) := by
    intro hcontainer
    cases v with
    | array items => exact ofText_eq_ofJson_iff (.array items) nofun nofun
    | object entries => exact ofText_eq_ofJson_iff (.object entries) nofun nofun
    | _ => contradiction
  constructor
  · intro h
    have hread := isRead_ofText raw
    rw [h] at hread
    exact ⟨hread.1, (hcast hread.1).1 h⟩
  · rintro ⟨hcontainer, h⟩
    exact (hcast hcontainer).2 h

/-- The JSON of a plain text, if it has any, is a number that is no literal. -/
theorem IsPlain.kind_eq {raw : Text} (hplain : IsPlain raw) {v : Json}
    (h : Json.ofText? raw = some v) : v.kind = .number := by
  cases v with
  | null => exact absurd (Json.ofText?_eq_null_iff.1 h) hplain.ne_null
  | bool b => exact absurd (Json.ofText?_eq_bool_iff.1 h) (hplain.ne_bool b)
  | integer i => rfl
  | float x => rfl
  | string s => exact absurd h (hplain.ne_string s)
  | array items => exact absurd h (hplain.ne_container _ rfl)
  | object entries => exact absurd h (hplain.ne_container _ rfl)

theorem isPlain_of_eq_none {raw : Text} (hne : raw ≠ []) (hnumber : Literal.number? raw = none)
    (h : Json.ofText? raw = none) : IsPlain raw where
  ne_nil := hne
  number?_eq_none := hnumber
  ne_null hnull := by simp [Json.ofText?_eq_null_iff.2 hnull] at h
  ne_bool b hbool := by simp [Json.ofText?_eq_bool_iff.2 hbool] at h
  ne_string s hs := by simp [hs] at h
  ne_container v _ hv := by simp [hv] at h

theorem ofText_eq_text_iff {raw s : Text} :
    ofText raw = .text s ↔ Json.ofText? raw = some (.string s) ∨ (IsPlain raw ∧ s = raw) := by
  have h := cascade_ofText raw
  generalize ofText raw = value at h ⊢
  cases h with
  | absent h =>
    subst h
    have hjson : Json.ofText? [] = none := rfl
    have hplain : ¬IsPlain [] := fun hplain => hplain.ne_nil rfl
    simp [hjson, hplain]
  | number hne h hjson =>
    have hstring : Json.ofText? raw ≠ some (.string s) := fun hs => nomatch hjson _ hs
    have hplain : ¬IsPlain raw := fun hplain => by simp [hplain.number?_eq_none] at h
    simp [hstring, hplain]
  | @json v hne hnumber h hkind =>
    -- Of plain texts only numbers are JSON, and those are literals.
    have hplain : ¬IsPlain raw := fun hplain => hkind (hplain.kind_eq h)
    cases v <;> simp [ofJson, h, hplain]
  | text hne hnumber h => simp [h, isPlain_of_eq_none hne hnumber h, eq_comm]

/-! ### All values -/

/-- **Which value a text is cast to is exact**, value by value: a text is cast to a value just if it
stands for it. A structured value is an array or an object, never a scalar, since a text that reads
as a JSON number is a number literal. -/
theorem ofText_eq_iff (raw : Text) :
    (∀ value, ofText raw = value ↔ Stands raw value) ∧
      ∀ n, Json.Tree.ofText? raw = some (.number n) → (Literal.number? raw).isSome = true := by
  refine ⟨fun value => ?_, fun n => Literal.number?_isSome_of_ofText?⟩
  cases value with
  | absent => exact ofText_eq_absent_iff
  | null =>
    rw [Stands, ← Json.ofText?_eq_null_iff]
    exact ofText_eq_ofJson_iff .null nofun nofun
  | bool b =>
    rw [Stands, ← Json.ofText?_eq_bool_iff]
    exact ofText_eq_ofJson_iff (.bool b) nofun nofun
  | number x => exact ofText_eq_number_iff
  | structured v => exact ofText_eq_structured_iff
  | text s => exact ofText_eq_text_iff

/-- A JSON number that is too large for a double. -/
def overflowing : Text := " -1E400\n".toList

theorem ofText_eq_iff_overflowing :
    Json.Tree.ofText? overflowing = some (.number ⟨true, ['1'], [], some 400⟩) ∧
    (Literal.number? overflowing).isSome = true ∧
    ofText overflowing = .number ⟨true, .infinity⟩ := by
  have htree : Json.Tree.ofText? overflowing = some (.number ⟨true, ['1'], [], some 400⟩) := rfl
  have hnumber : Literal.number? overflowing = some ⟨true, .infinity⟩ := rfl
  obtain ⟨hcast, hliteral⟩ := ofText_eq_iff overflowing
  exact ⟨htree, hliteral _ htree, (hcast _).2 ⟨by decide, hnumber⟩⟩

end EnvValue
end PullPlan
