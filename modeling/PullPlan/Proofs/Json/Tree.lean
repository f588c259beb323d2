import PullPlan.Proofs.Json.FloatText

/-!
# The tree of a value

`Json.tree` is the structure that the text of a value has, whatever the layout. It determines the
value (`tree_injective`).

The value of that tree is the value again exactly if each of its numbers is what the reader makes of
the number's text (`value?_tree_iff`). Integers of 64 bits are (`isReadBack_integer`); of doubles
some are and some are not.
-/

namespace PullPlan
namespace Json

/-- The numeral that an integer is written as. -/
def Numeral.ofInteger (i : Int) : Numeral := ⟨decide (i < 0), Text.ofNat i.natAbs, [], none⟩

theorem Numeral.ofInteger_injective {i j : Int} (h : ofInteger i = ofInteger j) : i = j := by
  have hsign : decide (i < 0) = decide (j < 0) := congrArg Numeral.negative h
  have hdigits : Text.ofNat i.natAbs = Text.ofNat j.natAbs := congrArg Numeral.whole h
  have habs : i.natAbs = j.natAbs := by
    rw [← Text.toNat_ofNat i.natAbs, hdigits, Text.toNat_ofNat]
  rw [decide_eq_decide] at hsign
  omega

mutual

/-- The structure of the text of a value. -/
def tree : Json → Tree
  | .null => .null
  | .bool b => .bool b
  | .integer i => .number (.ofInteger i)
  | .float x => .number (.ofDouble x)
  | .string t => .string (t.map .char)
  | .array items => .array (itemTrees items)
  | .object entries => .object (memberTrees entries)

/-- The structures of the items of an array. -/
def itemTrees : List Json → List Tree
  | [] => []
  | item :: items => tree item :: itemTrees items

/-- The structures of the entries of an object. -/
def memberTrees : List (Text × Json) → List (List Piece × Tree)
  | [] => []
  | (key, value) :: entries => (key.map .char, tree value) :: memberTrees entries

end

/-! ### The tree determines the value -/

theorem map_char_injective {t u : Text} (h : t.map Piece.char = u.map Piece.char) : t = u :=
  List.map_injective_iff.2 (fun _ _ h => Piece.char.inj h) h

mutual

theorem tree_injective : ∀ {v w : Json}, v.tree = w.tree → v = w
  | .null, w, h => by
    cases w <;> simp_all [tree]
  | .bool b, w, h => by
    cases w <;> simp_all [tree]
  | .integer i, w, h => by
    cases w with
    | integer j => exact congrArg Json.integer (Numeral.ofInteger_injective (Tree.number.inj h))
    | float y => exact absurd (Tree.number.inj h).symm (Numeral.ofDouble_ne y _ _)
    | _ => simp [tree] at h
  | .float x, w, h => by
    cases w with
    | integer j => exact absurd (Tree.number.inj h) (Numeral.ofDouble_ne x _ _)
    | float y => exact congrArg Json.float (Numeral.ofDouble_injective (Tree.number.inj h))
    | _ => simp [tree] at h
  | .string t, w, h => by
    cases w with
    | string u => exact congrArg Json.string (map_char_injective (Tree.string.inj h))
    | _ => simp [tree] at h
  | .array items, w, h => by
    cases w with
    | array items' => exact congrArg Json.array (itemTrees_injective (Tree.array.inj h))
    | _ => simp [tree] at h
  | .object entries, w, h => by
    cases w with
    | object entries' => exact congrArg Json.object (memberTrees_injective (Tree.object.inj h))
    | _ => simp [tree] at h

theorem itemTrees_injective : ∀ {items items' : List Json},
    itemTrees items = itemTrees items' → items = items'
  | [], items', h => by
    cases items' with
    | nil => rfl
    | cons item' items' => simp [itemTrees] at h
  | item :: items, items', h => by
    cases items' with
    | nil => simp [itemTrees] at h
    | cons item' items' =>
      obtain ⟨hitem, hitems⟩ := List.cons.inj h
      rw [tree_injective hitem, itemTrees_injective hitems]

theorem memberTrees_injective : ∀ {entries entries' : List (Text × Json)},
    memberTrees entries = memberTrees entries' → entries = entries'
  | [], entries', h => by
    cases entries' with
    | nil => rfl
    | cons e' entries' => simp [memberTrees] at h
  | (key, value) :: entries, entries', h => by
    cases entries' with
    | nil => simp [memberTrees] at h
    | cons e' entries' =>
      obtain ⟨hentry, hentries⟩ := List.cons.inj h
      obtain ⟨hkey, hvalue⟩ := Prod.mk.inj hentry
      rw [map_char_injective hkey, tree_injective hvalue, memberTrees_injective hentries]

end

/-! ### Numbers -/

mutual

/-- The numbers in a value, in the order in which they are printed. -/
def numbers : Json → List Json
  | .integer i => [.integer i]
  | .float x => [.float x]
  | .array items => itemNumbers items
  | .object entries => entryNumbers entries
  | _ => []

/-- The numbers in the items of an array. -/
def itemNumbers : List Json → List Json
  | [] => []
  | item :: items => numbers item ++ itemNumbers items

/-- The numbers in the values of the entries of an object. -/
def entryNumbers : List (Text × Json) → List Json
  | [] => []
  | (_, value) :: entries => numbers value ++ entryNumbers entries

end

theorem mem_entryNumbers {entries : List (Text × Json)} {n : Json} :
    n ∈ entryNumbers entries ↔ ∃ e ∈ entries, n ∈ e.2.numbers := by
  induction entries with
  | nil => simp [entryNumbers]
  | cons e entries ih => simp [entryNumbers, ih]

/-- Whether a number is what the reader makes of its text. -/
def IsReadBack (n : Json) : Prop := (Numeral.ofText? n.compact).bind Numeral.value? = some n

theorem isReadBack_integer_iff {i : Int} :
    IsReadBack (.integer i) ↔ (Numeral.ofInteger i).value? = some (.integer i) := by
  have hnumeral : Numeral.ofText? (Json.integer i).compact = some (.ofInteger i) :=
    Numeral.ofText?_integerText i
  rw [IsReadBack, hnumeral, Option.bind_some]

theorem isReadBack_float_iff {x : Double} :
    IsReadBack (.float x) ↔ (Numeral.ofDouble x).value? = some (.float x) := by
  have hnumeral : Numeral.ofText? (Json.float x).compact = some (.ofDouble x) :=
    Numeral.ofText?_floatText x
  rw [IsReadBack, hnumeral, Option.bind_some]

theorem isReadBack_integer {i : Int} (h : isWord i = true) : IsReadBack (.integer i) :=
  isReadBack_integer_iff.2 (Numeral.value?_integer h)

/-! ### The value of the tree -/

theorem text?_map_char (t : Text) : text? (t.map .char) = some t := by
  induction t with
  | nil => rfl
  | cons c t ih => rw [List.map_cons, text?, ih, Option.map_some]

/-- The keys are read whatever the values are. -/
theorem keys_of_memberValues? {entries entries' : List (Text × Json)} {depth : Nat}
    (h : Tree.memberValues? (memberTrees entries) depth = some entries') :
    entries'.map (·.1) = entries.map (·.1) := by
  induction entries generalizing entries' with
  | nil =>
    obtain rfl := Option.some.inj h
    rfl
  | cons e entries ih =>
    simp only [memberTrees, Tree.memberValues?, text?_map_char, Option.bind_eq_bind,
      Option.bind_some, Option.bind_eq_some_iff, Option.pure_def, Option.some.injEq] at h
    obtain ⟨value, -, rest, hrest, rfl⟩ := h
    rw [List.map_cons, List.map_cons, ih hrest]

mutual

/-- **A value is read back exactly if its numbers are.** -/
theorem value?_tree_iff : ∀ {v : Json} {depth : Nat}, IsNormal v depth →
    (v.tree.value? depth = some v ↔ ∀ n ∈ v.numbers, n.IsReadBack)
  | .null, depth, hnormal => by simp [tree, Tree.value?, numbers]
  | .bool b, depth, hnormal => by simp [tree, Tree.value?, numbers]
  | .integer i, depth, hnormal => by
    simp [tree, Tree.value?, numbers, isReadBack_integer_iff]
  | .float x, depth, hnormal => by
    simp [tree, Tree.value?, numbers, isReadBack_float_iff]
  | .string t, depth, hnormal => by simp [tree, Tree.value?, numbers, text?_map_char]
  | .array items, 0, hnormal => hnormal.elim
  | .array items, depth + 1, hnormal => by
    have hitems : Tree.itemValues? (itemTrees items) depth = some items ↔ _ :=
      itemValues?_itemTrees_iff hnormal
    simp only [tree, Tree.value?, numbers, Option.map_eq_some_iff, Json.array.injEq,
      exists_eq_right, hitems]
  | .object entries, 0, hnormal => hnormal.elim
  | .object entries, depth + 1, hnormal => by
    obtain ⟨hsorted, hvalues⟩ := hnormal
    have hentries : Tree.memberValues? (memberTrees entries) depth = some entries ↔ _ :=
      memberValues?_memberTrees_iff hvalues
    rw [numbers, ← hentries]
    show (Tree.memberValues? (memberTrees entries) depth).map
      (fun entries => ofDict (Dict.ofList entries)) = some (.object entries) ↔ _
    constructor
    · intro h
      obtain ⟨read, hread, heq⟩ := Option.map_eq_some_iff.1 h
      -- What is read has the same keys, so it is sorted as well and stays as it is.
      have hsorted' : read.Pairwise fun a b => a.1 < b.1 := by
        rw [← List.pairwise_map (f := Prod.fst), keys_of_memberValues? hread, List.pairwise_map]
        exact hsorted
      have hread' : read = entries := by
        rw [ofDict, Dict.entries_ofList hsorted'] at heq
        exact Json.object.inj heq
      rw [hread, hread']
    · intro h
      rw [h, Option.map_some, ofDict, Dict.entries_ofList hsorted]

theorem itemValues?_itemTrees_iff : ∀ {items : List Json} {depth : Nat}, AreNormal items depth →
    (Tree.itemValues? (itemTrees items) depth = some items ↔
      ∀ n ∈ itemNumbers items, n.IsReadBack)
  | [], depth, hnormal => by simp [itemTrees, Tree.itemValues?, itemNumbers]
  | item :: items, depth, hnormal => by
    have hitem := value?_tree_iff hnormal.1
    have hitems := itemValues?_itemTrees_iff hnormal.2
    rw [itemNumbers, List.forall_mem_append, ← hitem, ← hitems]
    simp [itemTrees, Tree.itemValues?, Option.bind_eq_some_iff]

theorem memberValues?_memberTrees_iff : ∀ {entries : List (Text × Json)} {depth : Nat},
    HasNormalValues entries depth →
    (Tree.memberValues? (memberTrees entries) depth = some entries ↔
      ∀ n ∈ entryNumbers entries, n.IsReadBack)
  | [], depth, hnormal => by simp [memberTrees, Tree.memberValues?, entryNumbers]
  | (key, value) :: entries, depth, hnormal => by
    have hvalue := value?_tree_iff hnormal.1
    have hentries := memberValues?_memberTrees_iff hnormal.2
    rw [entryNumbers, List.forall_mem_append, ← hvalue, ← hentries]
    simp [memberTrees, Tree.memberValues?, Option.bind_eq_some_iff, text?_map_char]

end

end Json
end PullPlan
