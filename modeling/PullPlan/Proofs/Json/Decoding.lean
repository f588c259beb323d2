import PullPlan.Json.Decoding
import PullPlan.Proofs.Json.Tree

/-!
# Decoding trees

Decoding a tree is the same as taking its value and looking what that is: a text
(`Tree.text?_eq_some_iff`), a text or `null`, or a list of texts. The members of an object are the
entries that were printed, each value with its own tree (`members?_tree`).
-/

namespace PullPlan
namespace Json

/-! ### Trees of printed values -/

theorem members?_tree (entries : List (Text × Json)) :
    (Json.object entries).tree.members? = some (entries.map fun e => (e.1, e.2.tree)) := by
  show (memberTrees entries).mapM (fun member =>
    (text? member.1).map fun key => (key, member.2)) = _
  induction entries with
  | nil => rfl
  | cons e entries ih =>
    rw [memberTrees, List.mapM_cons, text?_map_char, Option.map_some, ih]
    rfl

/-- The items of an array are printed one by one. -/
theorem forall₂_itemTrees {α : Type} {holds : α → Tree → Prop} {print : α → Json} {items : List α}
    (h : ∀ item ∈ items, holds item (print item).tree) :
    List.Forall₂ holds items (itemTrees (items.map print)) := by
  induction items with
  | nil => exact .nil
  | cons item items ih =>
    obtain ⟨hitem, hitems⟩ := List.forall_mem_cons.1 h
    exact .cons hitem (ih hitems)

theorem memberValues?_memberTrees (entries : List (Text × Json)) (depth : Nat) :
    Tree.memberValues? (memberTrees entries) depth
      = entries.mapM fun e => (e.2.tree.value? depth).map fun value => (e.1, value) := by
  induction entries with
  | nil => rfl
  | cons e entries ih =>
    rw [memberTrees, Tree.memberValues?, text?_map_char, ih, List.mapM_cons]
    cases e.2.tree.value? depth <;> rfl

theorem value?_tree_string (t : Text) (depth : Nat) :
    (Json.string t).tree.value? depth = some (.string t) :=
  congrArg (Option.map Json.string) (text?_map_char t)

theorem value?_tree_ofTexts (texts : List Text) (depth : Nat) :
    (ofTexts texts).tree.value? (depth + 1) = some (ofTexts texts) := by
  have hitems : Tree.itemValues? (itemTrees (texts.map .string)) depth
      = some (texts.map .string) := by
    induction texts with
    | nil => rfl
    | cons t texts ih =>
      rw [List.map_cons, itemTrees, Tree.itemValues?, value?_tree_string, ih]
      rfl
  exact congrArg (Option.map Json.array) hitems

theorem natural?_tree {n : Nat} (h : n < wordBound) :
    (integer n).tree.natural? = some n := by
  have hword : isWord (n : Int) = true := by
    have hbound : wordBound = 18446744073709551616 := rfl
    simp only [isWord, Bool.and_eq_true, decide_eq_true_eq]
    omega
  have hvalue : (Numeral.ofInteger (n : Int)).value? = some (.integer n) :=
    Numeral.value?_integer hword
  show Tree.natural? (.number (Numeral.ofInteger (n : Int))) = some n
  rw [Tree.natural?, hvalue]

/-! ### Decoding and values -/

namespace Tree

theorem text?_eq_some_iff {tree : Tree} {t : Text} (depth : Nat) :
    tree.text? = some t ↔ tree.value? depth = some (.string t) := by
  cases tree with
  | string pieces =>
    show Json.text? pieces = some t ↔ (Json.text? pieces).map Json.string = some (.string t)
    simp
  | number numeral =>
    refine iff_of_false (by simp [text?]) fun h => ?_
    obtain ⟨i, hi⟩ | ⟨x, hx⟩ := Numeral.value?_cases h
    · simp at hi
    · simp at hx
  | null => simp [text?, value?]
  | bool b => simp [text?, value?]
  | array items => cases depth <;> simp [text?, value?]
  | object members => cases depth <;> simp [text?, value?, ofDict]

theorem nullable?_text?_eq_some_iff {tree : Tree} {t : Option Text} (depth : Nat) :
    nullable? text? tree = some t ↔ tree.value? depth = some (textOrNull t) := by
  by_cases hnull : tree = .null
  · subst hnull
    cases t <;> simp [nullable?, value?, textOrNull]
  · have hdecode : nullable? text? tree = tree.text?.map some := by
      rw [nullable?]
      exact hnull
    rw [hdecode]
    cases t with
    | some t =>
      rw [textOrNull, ← text?_eq_some_iff]
      simp
    | none =>
      -- Nothing but `null` has the value `null`.
      refine iff_of_false (by simp) fun h => ?_
      cases tree with
      | null => exact hnull rfl
      | number numeral =>
        obtain ⟨i, hi⟩ | ⟨x, hx⟩ := Numeral.value?_cases h
        · simp [textOrNull] at hi
        · simp [textOrNull] at hx
      | bool b => simp [value?, textOrNull] at h
      | string pieces => simp [value?, textOrNull] at h
      | array items => cases depth <;> simp [value?, textOrNull] at h
      | object members => cases depth <;> simp [value?, textOrNull, ofDict] at h

theorem mapM_text?_eq_some_iff {items : List Tree} {texts : List Text} (depth : Nat) :
    items.mapM text? = some texts ↔ itemValues? items depth = some (texts.map .string) := by
  induction items generalizing texts with
  | nil => cases texts <;> simp [itemValues?]
  | cons item items ih =>
    cases texts with
    | nil => simp [itemValues?, Option.bind_eq_some_iff]
    | cons t texts =>
      simp [itemValues?, Option.bind_eq_some_iff, text?_eq_some_iff depth, ih]

/-- They are decoded one by one as well. -/
theorem list?_of_forall₂ {α : Type} {decode? : Tree → Option α} {answers : List α}
    {items : List Tree}
    (h : List.Forall₂ (fun answer item => decode? item = some answer) answers items) :
    (Tree.array items).list? decode? = some answers := by
  show items.mapM decode? = some answers
  induction h with
  | nil => rfl
  | cons hitem _ ih =>
    rw [List.mapM_cons, hitem, ih]
    rfl

theorem list?_text?_eq_some_iff {tree : Tree} {texts : List Text} (depth : Nat) :
    list? text? tree = some texts ↔ tree.value? (depth + 1) = some (ofTexts texts) := by
  cases tree with
  | array items =>
    show items.mapM text? = some texts ↔ (itemValues? items depth).map Json.array = _
    rw [mapM_text?_eq_some_iff depth, Option.map_eq_some_iff]
    simp [ofTexts]
  | number numeral =>
    refine iff_of_false (by simp [list?]) fun h => ?_
    obtain ⟨i, hi⟩ | ⟨x, hx⟩ := Numeral.value?_cases h
    · simp [ofTexts] at hi
    · simp [ofTexts] at hx
  | null => simp [list?, value?, ofTexts]
  | bool b => simp [list?, value?, ofTexts]
  | string pieces => simp [list?, value?, ofTexts]
  | object members => simp [list?, value?, ofTexts, ofDict]

theorem only?_eq_some_iff {key : Text} {members : List (Text × Tree)} {o : Option Tree} :
    only? key members = some o ↔ Dict.valuesAt key members = o.toList := by
  have hvalues : Dict.valuesAt key members
      = (members.filter fun member => member.1 = key).map (·.2) := by
    induction members with
    | nil => rfl
    | cons member members ih =>
      rw [Dict.valuesAt_cons, ih]
      by_cases hkey : key = member.1
      · rw [if_pos hkey, List.filter_cons_of_pos (by simpa using hkey.symm), List.map_cons]
      · rw [if_neg hkey, List.filter_cons_of_neg (by simpa using Ne.symm hkey)]
  rw [hvalues, only?.eq_def]
  generalize members.filter (fun member => member.1 = key) = chosen
  match chosen with
  | [] => cases o <;> simp
  | [member] => cases o <;> simp
  | first :: second :: more => cases o <;> simp

/-- The fields of an object in which each of the names stands once. -/
theorem fields?_of_valuesAt {tree : Tree} {members : List (Text × Tree)}
    (hmembers : tree.members? = some members) {names : List Text} {values : List Tree}
    (hvalues : List.Forall₂ (fun name value => Dict.valuesAt name members = [value]) names values) :
    tree.fields? names = some (values.map some) := by
  have hobject : tree.fields? names = names.mapM fun name => only? name members := by
    cases tree with
    | object written =>
      show (members? (.object written)).bind _ = _
      rw [hmembers, Option.bind_some]
    | _ => simp [members?] at hmembers
  rw [hobject]
  clear hobject
  induction hvalues with
  | nil => rfl
  | cons hvalue _ ih =>
    have honly : only? _ members = some (some _) := only?_eq_some_iff.2 hvalue
    rw [List.mapM_cons, honly, ih]
    rfl

end Tree
end Json
end PullPlan
