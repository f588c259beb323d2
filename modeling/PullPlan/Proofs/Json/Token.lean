import Mathlib.Tactic.SplitIfs
import PullPlan.Proofs.Json.Reader

/-!
# Texts that are one token

A text that reads as a word or a number is its token with nothing but gaps around it
(`exists_token_of_ofText?`). The invariant behind this is `State.Follows`: it says of each state
without open arrays and objects which texts may lead there, and `State.follows_step` carries it over
one character.

A number literal may have gaps around it, too, so a text that reads as a number is a literal
(`Literal.number?_isSome_of_ofText?`).
-/

namespace PullPlan
namespace Json

/-- Whether a text is the token of a tree. Strings, arrays and objects are not single tokens here,
so nothing is asked of them. -/
def IsToken (token : Text) : Tree → Prop
  | .null => token = "null".toList
  | .bool true => token = "true".toList
  | .bool false => token = "false".toList
  | .number n => Numeral.ofText? token = some n
  | _ => True

/-- Whether a text is a gap and then the front of a token. -/
def Opens (front t : Text) : Prop :=
  ∃ gap, t = gap ++ front ∧ ∀ c ∈ gap, State.isGap c = true

/-- Whether a text is a token between gaps. -/
def Wraps (token t : Text) : Prop :=
  ∃ front tail, Opens token front ∧ t = front ++ tail ∧ ∀ c ∈ tail, State.isGap c = true

theorem Opens.append {front t : Text} (h : Opens front t) (c : Char) :
    Opens (front ++ [c]) (t ++ [c]) := by
  obtain ⟨gap, rfl, hgap⟩ := h
  exact ⟨gap, List.append_assoc .., hgap⟩

theorem Opens.wraps {token t : Text} (h : Opens token t) : Wraps token t :=
  ⟨t, [], h, (List.append_nil t).symm, by simp⟩

theorem Wraps.append {token t : Text} (h : Wraps token t) {c : Char}
    (hc : State.isGap c = true) : Wraps token (t ++ [c]) := by
  obtain ⟨front, tail, hfront, rfl, htail⟩ := h
  refine ⟨front, tail ++ [c], hfront, List.append_assoc .., fun d hd => ?_⟩
  rcases List.mem_append.1 hd with hd | hd
  · exact htail d hd
  · exact List.mem_singleton.1 hd ▸ hc

namespace State

/-! ### The invariant -/

/-- Whether a text may lead to a state, as far as no array and no object is open. -/
def Follows (t : Text) : State → Prop
  | ⟨[], .value⟩ => ∀ c ∈ t, isGap c = true
  | ⟨[], .item⟩ => False
  | ⟨[], .word rest tree⟩ => ∃ front, Opens front t ∧ IsToken (front ++ rest) tree
  | ⟨[], .number characters⟩ => Opens characters.reverse t
  | ⟨[], .done tree⟩ => ∃ token, Wraps token t ∧ IsToken token tree
  | _ => True

theorem follows_cons (t : Text) (frame : Frame) (stack : List Frame) (focus : Focus) :
    Follows t ⟨frame :: stack, focus⟩ := by
  simp only [Follows]

/-- Inside objects and strings nothing is asked of a text. -/
theorem follows_inner (t : Text) (stack : List Frame) {focus : Focus}
    (h : Follows t ⟨[], focus⟩ = True) : Follows t ⟨stack, focus⟩ := by
  cases stack with
  | cons frame stack => exact follows_cons ..
  | nil => exact of_eq_true h

/-- Nothing is asked of a text that ends with a bracket, a brace or a quote. -/
theorem follows_done {t : Text} {tree : Tree} (h : ∀ token, IsToken token tree) :
    ∀ stack, Follows t ⟨stack, .done tree⟩
  | [] => ⟨t, Opens.wraps ⟨[], rfl, by simp⟩, h t⟩
  | frame :: stack => follows_cons t frame stack _

/-- The first character of a value behind a gap. -/
theorem follows_openValue {t : Text} {stack : List Frame} {c : Char} {s : State}
    (ht : stack = [] → ∀ d ∈ t, isGap d = true) (h : openValue stack c = some s) :
    Follows (t ++ [c]) s := by
  cases stack with
  | cons frame stack =>
    rw [openValue] at h
    split_ifs at h <;> obtain rfl := Option.some.inj h <;> exact follows_cons ..
  | nil =>
    have hopens : Opens [c] (t ++ [c]) := ⟨t, rfl, ht rfl⟩
    rw [openValue] at h
    split_ifs at h with h₁ h₂ h₃ h₄ h₅ h₆ h₇ <;> obtain rfl := Option.some.inj h
    · trivial
    · trivial
    · trivial
    · exact ⟨[c], hopens, by rw [h₄]; rfl⟩
    · exact ⟨[c], hopens, by rw [h₅]; rfl⟩
    · exact ⟨[c], hopens, by rw [h₆]; rfl⟩
    · exact hopens

/-- The character after a complete value. -/
theorem follows_afterValue {t : Text} {stack : List Frame} {tree : Tree} {c : Char} {s : State}
    (ht : Follows t ⟨stack, .done tree⟩) (h : afterValue stack tree c = some s) :
    Follows (t ++ [c]) s := by
  rw [afterValue.eq_def] at h
  by_cases hgap : isGap c = true
  · rw [if_pos hgap] at h
    obtain rfl := Option.some.inj h
    cases stack with
    | cons frame stack => exact follows_cons ..
    | nil =>
      obtain ⟨token, hwraps, htoken⟩ := ht
      exact ⟨token, hwraps.append hgap, htoken⟩
  · rw [if_neg hgap] at h
    cases stack with
    | nil => contradiction
    | cons frame stack =>
      cases frame with
      | array items =>
        dsimp only at h
        split_ifs at h <;> obtain rfl := Option.some.inj h
        · exact follows_cons ..
        · refine follows_done ?_ stack
          exact fun _ => trivial
      | object members key =>
        dsimp only at h
        split_ifs at h <;> obtain rfl := Option.some.inj h
        · cases stack <;> trivial
        · refine follows_done ?_ stack
          exact fun _ => trivial

/-- A closed string is a value or a key. -/
theorem follows_closeString (t : Text) (stack : List Frame) (pieces : List Piece) (role : Role) :
    Follows t (closeString stack pieces role) := by
  cases role with
  | value =>
    refine follows_done ?_ stack
    exact fun _ => trivial
  | key members => cases stack <;> trivial

/-- A further letter of a word; the last one completes it, and the token with it. -/
theorem follows_word {t : Text} {stack : List Frame} {rest : Text} {tree : Tree} {c : Char}
    {s : State} (ht : Follows t ⟨stack, .word rest tree⟩)
    (h : step ⟨stack, .word rest tree⟩ (some c) = some s) : Follows (t ++ [c]) s := by
  cases rest with
  | nil => simp [step, outsideString] at h
  | cons next rest =>
    have hfront : stack = [] → ∃ front, Opens front t ∧ IsToken (front ++ next :: rest) tree := by
      rintro rfl
      exact ht
    cases rest with
    | nil =>
      have hlast : (if c = next then some ⟨stack, .done tree⟩ else none) = some s := h
      split_ifs at hlast with hc
      obtain rfl := Option.some.inj hlast
      cases stack with
      | cons frame stack => exact follows_cons ..
      | nil =>
        obtain ⟨front, hopens, htoken⟩ := hfront rfl
        exact ⟨front ++ [c], (hopens.append c).wraps, hc ▸ htoken⟩
    | cons last rest =>
      have hnext : (if c = next then some ⟨stack, .word (last :: rest) tree⟩ else none)
          = some s := h
      split_ifs at hnext with hc
      obtain rfl := Option.some.inj hnext
      cases stack with
      | cons frame stack => exact follows_cons ..
      | nil =>
        obtain ⟨front, hopens, htoken⟩ := hfront rfl
        exact ⟨front ++ [c], hopens.append c, by simpa [hc] using htoken⟩

/-- A further character of a number, or the one behind it. -/
theorem follows_number {t : Text} {stack : List Frame} {characters : Text} {c : Char} {s : State}
    (ht : Follows t ⟨stack, .number characters⟩)
    (h : step ⟨stack, .number characters⟩ (some c) = some s) : Follows (t ++ [c]) s := by
  simp only [step, Option.bind_some, outsideString] at h
  split at h
  · obtain rfl := Option.some.inj h
    cases stack with
    | cons frame stack => exact follows_cons ..
    | nil =>
      have hopens : Opens (characters.reverse ++ [c]) (t ++ [c]) := Opens.append ht c
      rwa [← List.reverse_cons] at hopens
  · -- The number ends before this character, which is then read after a complete value.
    obtain ⟨n, hn, hafter⟩ := Option.bind_eq_some_iff.1 h
    refine follows_afterValue ?_ hafter
    cases stack with
    | cons frame stack => exact follows_cons ..
    | nil => exact ⟨characters.reverse, Opens.wraps ht, hn⟩

theorem follows_step {t : Text} {s s' : State} {c : Char} (h : Follows t s)
    (hstep : s.step (some c) = some s') : Follows (t ++ [c]) s' := by
  -- One case for each focus. With an open frame there is nothing to show.
  obtain ⟨stack, focus⟩ := s
  cases focus with
  | value =>
    by_cases hgap : isGap c = true
    · rw [step_gap rfl hgap] at hstep
      obtain rfl := Option.some.inj hstep
      cases stack with
      | cons frame stack => exact follows_cons ..
      | nil =>
        intro d hd
        rcases List.mem_append.1 hd with hd | hd
        · exact h d hd
        · exact List.mem_singleton.1 hd ▸ hgap
    · have hopen : openValue stack c = some s' := by
        simpa [step, outsideString, hgap] using hstep
      exact follows_openValue (by rintro rfl; exact h) hopen
  | item =>
    cases stack with
    | nil => exact h.elim
    | cons frame stack =>
      simp only [step, Option.bind_some, outsideString] at hstep
      split at hstep
      · obtain rfl := Option.some.inj hstep
        exact follows_cons ..
      split at hstep
      · cases frame with
        | array items =>
          obtain rfl := Option.some.inj hstep
          refine follows_done ?_ stack
          exact fun _ => trivial
        | object members key => contradiction
      · exact follows_openValue (by simp) hstep
  | member =>
    simp only [step, Option.bind_some, outsideString] at hstep
    split_ifs at hstep <;> obtain rfl := Option.some.inj hstep
    · exact follows_inner _ stack rfl
    · refine follows_done ?_ stack
      exact fun _ => trivial
    · exact follows_inner _ stack rfl
  | key members =>
    simp only [step, Option.bind_some, outsideString] at hstep
    split_ifs at hstep <;> obtain rfl := Option.some.inj hstep
    · exact follows_inner _ stack rfl
    · exact follows_inner _ stack rfl
  | colon members key =>
    simp only [step, Option.bind_some, outsideString] at hstep
    split_ifs at hstep <;> obtain rfl := Option.some.inj hstep
    · exact follows_inner _ stack rfl
    · exact follows_cons ..
  | word rest tree => exact follows_word h hstep
  | number characters => exact follows_number h hstep
  | string role pieces =>
    simp only [step, inString] at hstep
    split_ifs at hstep <;> obtain rfl := Option.some.inj hstep
    · exact follows_closeString ..
    · exact follows_inner _ stack rfl
    · exact follows_inner _ stack rfl
  | escape role pieces =>
    simp only [step, Option.bind_some, outsideString] at hstep
    split at hstep
    · obtain rfl := Option.some.inj hstep
      exact follows_inner _ stack rfl
    · obtain ⟨e, -, rfl⟩ := Option.map_eq_some_iff.1 hstep
      exact follows_inner _ stack rfl
  | code role pieces left code =>
    simp only [step, Option.bind_some, outsideString, Option.bind_eq_bind,
      Option.bind_eq_some_iff] at hstep
    obtain ⟨digit, -, hstep⟩ := hstep
    split at hstep <;> obtain rfl := Option.some.inj hstep
    · exact follows_inner _ stack rfl
    · exact follows_inner _ stack rfl
  | done tree => exact follows_afterValue h hstep

theorem follows_run {t u : Text} {s s' : State} (h : Follows t s) (hrun : s.run u = some s') :
    Follows (t ++ u) s' := by
  induction u generalizing t s with
  | nil =>
    obtain rfl := Option.some.inj hrun
    rwa [List.append_nil]
  | cons c u ih =>
    obtain ⟨next, hstep, hrun⟩ := Option.bind_eq_some_iff.1 hrun
    have := ih (follows_step h hstep) hrun
    rwa [List.append_assoc] at this

end State

/-! ### Texts that are read -/

/-- **A text of one token is nothing else.** What reads as a word or a number is its token between
gaps. -/
theorem exists_token_of_ofText? {t : Text} {tree : Tree} (h : Tree.ofText? t = some tree) :
    ∃ token, Wraps token t ∧ IsToken token tree := by
  rw [State.ofText?_eq_run] at h
  obtain ⟨s, hrun, hfinish⟩ := Option.bind_eq_some_iff.1 h
  have hstart : State.Follows [] State.start := by
    simp only [State.start, State.Follows, List.not_mem_nil, false_implies, implies_true]
  have hfollows := State.follows_run hstart hrun
  rw [List.nil_append] at hfollows
  obtain ⟨stack, focus⟩ := s
  rw [State.finish?.eq_def] at hfinish
  dsimp only at hfinish
  split at hfinish
  · obtain rfl := Option.some.inj hfinish
    exact hfollows
  · obtain ⟨n, hn, rfl⟩ := Option.map_eq_some_iff.1 hfinish
    exact ⟨_, Opens.wraps hfollows, hn⟩
  · contradiction

end Json

namespace Literal

theorem isBlank_of_isGap {c : Char} (h : Json.State.isGap c = true) : isBlank c = true := by
  simp only [Json.State.isGap, Bool.or_eq_true, decide_eq_true_eq] at h
  rcases h with ((rfl | rfl) | rfl) | rfl <;> decide

theorem isBlank_of_isNumberChar {c : Char} (h : Json.State.isNumberChar c = true) :
    isBlank c = false := by
  simp only [Json.State.isNumberChar, Bool.or_eq_true, decide_eq_true_eq] at h
  rcases h with ((((h | rfl) | rfl) | rfl) | rfl) | rfl
  · exact isBlank_of_isAsciiDigit h
  all_goals decide

/-- The gaps around a numeral are blank, and its characters are not. -/
theorem trim_eq_of_wraps {t token : Text} (h : Json.Wraps token t) {n : Json.Numeral}
    (hn : Json.Numeral.ofText? token = some n) : Text.trim t = token := by
  obtain ⟨front, tail, ⟨gap, rfl, hgap⟩, rfl, htail⟩ := h
  have hprinted : ∀ c ∈ token, isBlank c = false := fun c hc =>
    isBlank_of_isNumberChar (Json.Numeral.isNumberChar_of_ofText? hn c hc)
  obtain ⟨c, rest, hcons, -⟩ := Json.Numeral.head_of_ofText? hn
  have hsolid : Text.IsSolid token := {
    ne_nil := hcons ▸ List.cons_ne_nil c rest
    head := fun c hc => hprinted c (List.mem_of_head? hc)
    last := fun c hc => hprinted c (List.mem_of_getLast? hc) }
  exact hsolid.trim_append_append (fun c hc => isBlank_of_isGap (hgap c hc))
    fun c hc => isBlank_of_isGap (htail c hc)

/-- A text that reads as a JSON number is a number literal. -/
theorem number?_isSome_of_ofText? {t : Text} {n : Json.Numeral}
    (h : Json.Tree.ofText? t = some (.number n)) : (number? t).isSome := by
  obtain ⟨token, hwraps, htoken⟩ := Json.exists_token_of_ofText? h
  have hn : Json.Numeral.ofText? token = some n := htoken
  rw [number?, trim_eq_of_wraps hwraps hn]
  split
  · rfl
  · exact Json.Numeral.trimmed?_isSome_of_ofText? hn

end Literal
end PullPlan
