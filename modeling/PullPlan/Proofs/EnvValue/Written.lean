import PullPlan.Plan.Summary
import PullPlan.Proofs.EnvValue.Cast
import PullPlan.Proofs.Json.Compact
import PullPlan.Proofs.Json.Integer
import PullPlan.Proofs.Number.Exact

/-!
# Writing a value and casting it back

`EnvValue.written` is the text of a value as the summary of a plan shows it, and nothing for an
absent value. Casting it gives the value back (`ofText_written`), if its numbers are exact: small
integers stay numbers, texts come back out of their quotes, and arrays and objects are too unlike a
number to be taken for one. Only the sign of a zero is lost.

A written value fits on the line of a directive: it has no line feed (`lineFeed_not_mem_written`)
and no blank character at its end (`isBlank_getLast_written`).
-/

namespace PullPlan
namespace EnvValue

/-- The text of a value: compact JSON, or nothing if it is absent. -/
def written (v : EnvValue) : Text :=
  match v.toJson? with
  | some json => json.compact
  | none => []

theorem showValue_eq_written {v : EnvValue} (h : v.isAbsent = false) (colored : Bool) :
    Plan.showValue colored v = v.written := by
  unfold Plan.showValue written
  cases v with
  | absent => contradiction
  | _ => rfl

/-- Whether the numbers in a value are written exactly: a number is an integer of magnitude below
2^53, and the numbers in a structured value are what integers of 64 bits are read as. -/
def isExact : EnvValue → Bool
  | .number x => x.toInt?.any fun i => i.natAbs < exactBound
  | .structured v => v.numbers.all fun n => decide n.IsInteger
  | _ => true

/-- Whether two values are the same, up to the sign of a zero. -/
def Agrees : EnvValue → EnvValue → Prop
  | .number x, .number y => x = y ∨ (x.magnitude = .zero ∧ y.magnitude = .zero)
  | v, w => v = w

theorem agrees_of_eq {v w : EnvValue} (h : v = w) : v.Agrees w := by
  subst h
  cases v <;> simp [Agrees]

/-! ### Casting back -/

/-- The double that an integer below 2^53 is read as is the one that it was written for. -/
theorem agrees_number {x : Double} {i : Int} (h : x.toInt? = some i) :
    Agrees (.number ⟨decide (i < 0), .ofRatio i.natAbs 1⟩) (.number x) := by
  obtain ⟨n, hn, hi⟩ := Double.exists_toNat?_of_toInt? h
  have habs : i.natAbs = n := by
    rw [hi]
    split <;> omega
  have hratio : Magnitude.ofRatio i.natAbs 1 = x.magnitude := by
    rw [habs, Magnitude.ofRatio_eq_of_toNat? hn]
  rcases Nat.eq_zero_or_pos n with rfl | hpos
  · -- Both are zeros, and the sign of `x` is lost.
    have hzero : Magnitude.ofRatio i.natAbs 1 = .zero := by
      rw [habs, Magnitude.ofRatio, if_pos rfl]
    exact .inr ⟨hzero, hratio ▸ hzero⟩
  · have hsign : decide (i < 0) = x.negative := by
      rw [hi]
      cases x.negative with
      | true => simp [hpos]
      | false => simp
    exact .inl (by rw [hsign, hratio])

theorem numberJson_of_toInt? {x : Double} {v : Int} (h : x.toInt? = some v)
    (hv : v.natAbs < exactBound) : numberJson x = .integer v := by
  unfold numberJson
  rw [h]
  exact if_pos hv

theorem ofText_written_number {x : Double} {i : Int} (h : x.toInt? = some i)
    (hi : i.natAbs < exactBound) : (ofText (written (.number x))).Agrees (.number x) := by
  have hwritten : written (.number x) = Json.integerText i := by
    show (numberJson x).compact = Json.integerText i
    rw [numberJson_of_toInt? h hi]
    rfl
  have hcast : ofText (Json.integerText i) = .number ⟨decide (i < 0), .ofRatio i.natAbs 1⟩ :=
    ofText_of_number? (Literal.integerText_ne_nil i) (Literal.number?_integerText hi)
  rw [hwritten, hcast]
  exact agrees_number h

/-- JSON whose text is no literal is cast to what it stands for. -/
theorem ofText_compact {v : Json} (hnormal : v.IsNormal Json.depthLimit)
    (hback : ∀ n ∈ v.numbers, n.IsReadBack) {c : Char} {t : Text} (hcons : v.compact = c :: t)
    (hprinted : isPrinted c = true) (hstart : Literal.startsLiteral c = false) :
    ofText v.compact = ofJson v := by
  have hnumber : Literal.number? v.compact = none := by
    rw [hcons]
    exact Literal.number?_eq_none (isBlank_of_isPrinted hprinted) hstart
  exact ofText_of_ofText? hnumber (Json.ofText?_compact hnormal hback)

/-- An array starts with a bracket and an object with a brace. -/
theorem compact_head_of_isContainer {v : Json} (h : v.isContainer = true) :
    ∃ c t, v.compact = c :: t ∧ (c = '[' ∨ c = '\x7b') := by
  match v with
  | .array [] => exact ⟨'[', _, rfl, .inl rfl⟩
  | .array (item :: items) => exact ⟨'[', _, rfl, .inl rfl⟩
  | .object [] => exact ⟨'\x7b', _, rfl, .inr rfl⟩
  | .object ((key, value) :: entries) => exact ⟨'\x7b', _, rfl, .inr rfl⟩

/-- **Casting inverts writing** for every value that the cast yields, up to the sign of a zero. -/
theorem ofText_written {v : EnvValue} (hread : v.IsRead) (hexact : v.isExact = true) :
    (ofText v.written).Agrees v := by
  cases v with
  | absent => exact agrees_of_eq rfl
  | null =>
    have hcast : ofText Json.null.compact = .null :=
      ofText_compact trivial nofun rfl (by decide) (by decide)
    exact agrees_of_eq hcast
  | bool b =>
    have hcast : ofText (Json.bool b).compact = .bool b := by
      cases b with
      | true => exact ofText_compact trivial nofun rfl (by decide) (by decide)
      | false => exact ofText_compact trivial nofun rfl (by decide) (by decide)
    exact agrees_of_eq hcast
  | number x =>
    obtain ⟨i, h, hi⟩ := (Option.any_eq_true _ _).1 hexact
    exact ofText_written_number h (of_decide_eq_true hi)
  | text t =>
    have hcast : ofText (Json.string t).compact = .text t :=
      ofText_compact trivial nofun rfl (by decide) (by decide)
    exact agrees_of_eq hcast
  | structured v =>
    obtain ⟨hcontainer, hnormal⟩ := hread
    obtain ⟨c, t, hcons, hc⟩ := compact_head_of_isContainer hcontainer
    have hprinted : isPrinted c = true := by rcases hc with rfl | rfl <;> decide
    have hstart : Literal.startsLiteral c = false := by rcases hc with rfl | rfl <;> decide
    have hintegers : ∀ n ∈ v.numbers, n.IsInteger := by simpa [isExact] using hexact
    have hback : ∀ n ∈ v.numbers, n.IsReadBack := fun n hn =>
      Json.isReadBack_of_isInteger (hintegers n hn)
    have hcast : ofText v.compact = .structured v := by
      rw [ofText_compact hnormal hback hcons hprinted hstart]
      cases v with
      | array items => rfl
      | object entries => rfl
      | _ => contradiction
    exact agrees_of_eq hcast

/-! ### The characters of a written value -/

theorem lineFeed_not_mem_written (v : EnvValue) : '\n' ∉ v.written := by
  unfold written
  split
  · intro h
    exact absurd (Json.le_toNat_of_mem_compact _ h) (by decide)
  · simp

theorem isBlank_getLast_written {v : EnvValue} {c : Char} (h : v.written.getLast? = some c) :
    isBlank c = false := by
  unfold written at h
  split at h
  · exact isBlank_of_isPrinted (Json.isPrinted_getLast_compact _ h)
  · simp at h

end EnvValue
end PullPlan
