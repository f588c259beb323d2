import PullPlan.FileTree
import PullPlan.Proofs.Text.Utf8

/-!
# What is there, what is seen, and what was written

A name is followed through directories alone (`walk_cons_eq_ok_iff`). `Stands` says what is there
under it, and `Sees` what a look at it finds. The two differ by what `InView` rules out: a name that
is too long, a directory on the way that may not be entered, an entry that may not be looked at
(`sees_iff`). A name gets too long by a `detour` through the directory where it starts, which leads
to the same entry all the same.

A file is only written where no directory stands. So writing it does not change where a name leads
(`walk_set`), and what was written under a name is read under it again, if it may be read
(`read_of_write`).
-/

namespace PullPlan
namespace FileTree

variable {tree tree' : FileTree} {directory : Path} {name content : Text}

/-! ### Following names -/

/-- Where a component leads from a directory. -/
def follow (path : Path) (name : Text) : Except FileError Path :=
  if name.isEmpty || name = ['.'] then .ok path
  else if name = ['.', '.'] then .ok path.dropLast
  else if maxComponent < (Utf8.encode name).length then .error .nameTooLong
  else .ok (path ++ [name])

theorem allow_eq_ok_iff {path : Path} {access : Access} :
    tree.allow path access = .ok () ↔ tree.refusal? path access = none := by
  unfold allow
  cases tree.refusal? path access <;> simp

theorem walk_cons_eq_ok_iff {start target : Path} {names : List Text} :
    tree.walk start (name :: names) = .ok target ↔
      tree.get? start = some .directory ∧
        (name ≠ [] → tree.refusal? start .enter = none) ∧
        ∃ next, follow start name = .ok next ∧ tree.walk next names = .ok target := by
  rw [walk, follow]
  cases tree.get? start with
  | none => simp
  | some entry =>
    cases entry with
    | file bytes => simp
    | directory =>
      dsimp only
      by_cases hname : name = []
      · simp [hname]
      · rw [← allow_eq_ok_iff]
        cases tree.allow start .enter with
        | error e => simp [hname]
        | ok u =>
          simp only [List.isEmpty_iff, hname, if_false]
          split
          · simp [*]
          · split
            · simp [*]
            · split <;> simp [*]

theorem refusal?_congr (h : tree'.refusals = tree.refusals) (path : Path) (access : Access) :
    tree'.refusal? path access = tree.refusal? path access := by
  rw [refusal?, h, refusal?]

/-- A file changes nothing about where names lead, since it stands where no directory was. -/
theorem walk_set {path target : Path} (hpath : tree.get? path ≠ some .directory)
    (entry : FileEntry) {start : Path} {names : List Text}
    (h : tree.walk start names = .ok target) :
    (tree.set path entry).walk start names = .ok target := by
  have hne : path ≠ [] := by
    rintro rfl
    exact hpath rfl
  induction names generalizing start with
  | nil => exact h
  | cons name names ih =>
    rw [walk_cons_eq_ok_iff] at h ⊢
    obtain ⟨hstart, henter, next, hnext, hrest⟩ := h
    have hother : start ≠ path := by
      rintro rfl
      exact hpath hstart
    refine ⟨?_, henter, next, hnext, ih hrest⟩
    rw [tree.get?_set hne, if_neg hother, hstart]

/-- An empty component stays in a directory, so what ends with one leads to a directory. -/
theorem isDirectory_of_walk {start target : Path} {names : List Text}
    (h : tree.walk start (names ++ [[]]) = .ok target) : tree.get? target = some .directory := by
  induction names generalizing start with
  | nil =>
    rw [List.nil_append, walk_cons_eq_ok_iff] at h
    obtain ⟨hstart, -, next, hnext, hrest⟩ := h
    obtain rfl : start = next := Except.ok.inj hnext
    obtain rfl : start = target := Except.ok.inj hrest
    exact hstart
  | cons name names ih =>
    rw [List.cons_append, walk_cons_eq_ok_iff] at h
    obtain ⟨-, -, next, -, hrest⟩ := h
    exact ih hrest

theorem components_of_slash {t : Text} (h : t.getLast? = some '/') :
    ∃ name names, components t = name :: names ++ [[]] := by
  induction t with
  | nil => contradiction
  | cons c t ih =>
    cases t with
    | nil =>
      obtain rfl : c = '/' := Option.some.inj h
      exact ⟨[], [], rfl⟩
    | cons d t =>
      rw [List.getLast?_cons_cons] at h
      obtain ⟨name, names, hnames⟩ := ih h
      rw [components, hnames]
      split
      · exact ⟨[], name :: names, rfl⟩
      · exact ⟨c :: name, names, rfl⟩

theorem resolve_eq_ok_iff {path : Path} :
    tree.resolve directory name = .ok path ↔
      checkName name = .ok () ∧ tree.walk (origin directory name) (components name) = .ok path := by
  unfold resolve
  cases checkName name with
  | error e => simp [Bind.bind, Except.bind]
  | ok u => simp [Bind.bind, Except.bind]

/-! ### What is there and what is seen -/

/-- The same files and directories with nothing refused. -/
def openly (tree : FileTree) : FileTree := { tree with refusals := [] }

@[simp] theorem get?_openly (tree : FileTree) (path : Path) :
    tree.openly.get? path = tree.get? path := rfl

@[simp] theorem refusal?_openly (tree : FileTree) (path : Path) (access : Access) :
    tree.openly.refusal? path access = none := rfl

/-- The directories in which the components of a name are looked up. An empty component is not
looked up. -/
def entered (start : Path) : List Text → List Path
  | [] => []
  | name :: names =>
    (if name.isEmpty then [] else [start]) ++
      match follow start name with
      | .ok next => entered next names
      | .error _ => []

/-- A walk that leads somewhere is held up by nothing but the directories that it enters. -/
theorem walk_eq_ok_iff_openly {start target : Path} {names : List Text} :
    tree.walk start names = .ok target ↔
      tree.openly.walk start names = .ok target ∧
        ∀ path ∈ entered start names, tree.refusal? path .enter = none := by
  induction names generalizing start with
  | nil => simp [walk, entered]
  | cons name names ih =>
    rw [walk_cons_eq_ok_iff, walk_cons_eq_ok_iff, entered]
    cases hnext : follow start name with
    | error e => simp
    | ok next =>
      simp only [ih, Except.ok.injEq, exists_eq_left', get?_openly, refusal?_openly]
      by_cases hname : name = []
      · simp [hname, and_assoc]
      · simp [hname, and_assoc, and_left_comm]

theorem look_eq_ok_iff {path : Path} {entry : Option FileEntry} :
    tree.look directory name = .ok (path, entry) ↔
      tree.resolve directory name = .ok path ∧ tree.get? path = entry ∧
        (entry ≠ none → tree.refusal? path .look = none) := by
  unfold look
  cases tree.resolve directory name with
  | error e => simp [Bind.bind, Except.bind]
  | ok path' =>
    simp only [Bind.bind, Except.bind, Except.ok.injEq, ← allow_eq_ok_iff]
    cases hget : tree.get? path' with
    | none =>
      simp only [Except.ok.injEq, Prod.mk.injEq]
      constructor
      · rintro ⟨rfl, rfl⟩
        exact ⟨rfl, hget, nofun⟩
      · rintro ⟨rfl, rfl, -⟩
        exact ⟨rfl, hget.symm⟩
    | some found =>
      constructor
      · cases hallow : tree.allow path' .look with
        | error e => simp
        | ok u =>
          rintro h
          obtain ⟨rfl, rfl⟩ := Prod.mk.inj (Except.ok.inj h)
          exact ⟨rfl, hget, fun _ => hallow⟩
      · rintro ⟨rfl, rfl, hallow⟩
        rw [hget] at hallow ⊢
        rw [hallow (by simp)]

/-- An entry is there under a name. What is refused makes no difference, and neither does how long
the name is. -/
def Stands (tree : FileTree) (directory : Path) (name : Text) (entry : FileEntry) : Prop :=
  name ≠ [] ∧ '\x00' ∉ name ∧ ∃ path,
    tree.openly.walk (origin directory name) (components name) = .ok path ∧
      tree.get? path = some entry

/-- An entry is seen under a name. -/
def Sees (tree : FileTree) (directory : Path) (name : Text) (entry : FileEntry) : Prop :=
  ∃ path, tree.look directory name = .ok (path, some entry)

/-- Nothing keeps what is there under a name from being seen. -/
structure InView (tree : FileTree) (directory : Path) (name : Text) : Prop where
  short : (Utf8.encode name).length < maxName
  entered : ∀ path ∈ entered (origin directory name) (components name),
    tree.refusal? path .enter = none
  looked : ∀ path, tree.openly.walk (origin directory name) (components name) = .ok path →
    tree.refusal? path .look = none

theorem checkName_eq_ok_iff :
    checkName name = .ok () ↔
      name ≠ [] ∧ '\x00' ∉ name ∧ (Utf8.encode name).length < maxName := by
  unfold checkName
  by_cases hempty : name = []
  · simp [hempty]
  · by_cases hnul : '\x00' ∈ name
    · simp [hempty, hnul]
    · by_cases hlong : maxName ≤ (Utf8.encode name).length
      · simp [hempty, hnul, hlong]
      · simp [hempty, hnul, hlong, Nat.lt_of_not_le hlong]

/-- **What is there is seen if nothing is in the way.** -/
theorem sees_iff {entry : FileEntry} :
    tree.Sees directory name entry ↔
      tree.Stands directory name entry ∧ tree.InView directory name := by
  constructor
  · rintro ⟨path, hlook⟩
    obtain ⟨hresolve, hget, hlooked⟩ := look_eq_ok_iff.1 hlook
    obtain ⟨hcheck, hwalk⟩ := resolve_eq_ok_iff.1 hresolve
    obtain ⟨hname, hnul, hshort⟩ := checkName_eq_ok_iff.1 hcheck
    obtain ⟨hopenly, hentered⟩ := walk_eq_ok_iff_openly.1 hwalk
    refine ⟨⟨hname, hnul, path, hopenly, hget⟩, hshort, hentered, fun path' hopenly' => ?_⟩
    obtain rfl : path = path' := Except.ok.inj (hopenly.symm.trans hopenly')
    exact hlooked (by simp)
  · rintro ⟨⟨hname, hnul, path, hopenly, hget⟩, hview⟩
    have hcheck : checkName name = .ok () := checkName_eq_ok_iff.2 ⟨hname, hnul, hview.short⟩
    have hwalk : tree.walk (origin directory name) (components name) = .ok path :=
      walk_eq_ok_iff_openly.2 ⟨hopenly, hview.entered⟩
    exact ⟨path, look_eq_ok_iff.2 ⟨resolve_eq_ok_iff.2 ⟨hcheck, hwalk⟩, hget,
      fun _ => hview.looked path hopenly⟩⟩

/-- Under one name there is one entry. -/
theorem Stands.eq {entry entry' : FileEntry} (h : tree.Stands directory name entry)
    (h' : tree.Stands directory name entry') : entry = entry' := by
  obtain ⟨-, -, path, hwalk, hget⟩ := h
  obtain ⟨-, -, path', hwalk', hget'⟩ := h'
  obtain rfl : path = path' := Except.ok.inj (hwalk.symm.trans hwalk')
  exact Option.some.inj (hget.symm.trans hget')

theorem has_eq_true_iff :
    tree.has directory name = true ↔ ∃ entry, tree.Sees directory name entry := by
  unfold has Sees
  cases tree.look directory name with
  | error e => simp
  | ok found => cases found with | mk path entry => cases entry <;> simp

/-! ### Reading and writing -/

/-- What stands under a name, if anything, may be looked at and read. -/
def MayRead (tree : FileTree) (directory : Path) (name : Text) : Prop :=
  ∃ path, tree.resolve directory name = .ok path ∧ tree.refusal? path .look = none ∧
    tree.refusal? path .read = none

/-- A file may be put at a path where something stands or nothing does: over a file that may be
written to, or into a directory where files may be made. -/
def TakesFile (tree : FileTree) (path : Path) : Option FileEntry → Prop
  | some .directory => False
  | some (.file _) => tree.refusal? path .write = none
  | none => tree.isDirectory path.dropLast = true ∧ tree.refusal? path.dropLast .write = none

/-- A file can be put under a name. -/
def CanWrite (tree : FileTree) (directory : Path) (name : Text) : Prop :=
  name.getLast? ≠ some '/' ∧ ∃ path entry, tree.look directory name = .ok (path, entry) ∧
    tree.TakesFile path entry

theorem read_eq_ok_iff {bytes : Bytes} :
    tree.read directory name = .ok bytes ↔
      ∃ path, tree.look directory name = .ok (path, some (.file bytes)) ∧
        tree.refusal? path .read = none := by
  unfold read
  cases tree.look directory name with
  | error e => simp [Bind.bind, Except.bind]
  | ok found =>
    obtain ⟨path, entry⟩ := found
    simp only [Bind.bind, Except.bind, Except.ok.injEq, Prod.mk.injEq, and_assoc, exists_eq_left',
      ← allow_eq_ok_iff]
    cases entry with
    | none => simp
    | some entry =>
      dsimp only
      cases tree.allow path .read with
      | error e => simp
      | ok u => cases entry <;> simp

theorem read_eq_ok_iff_sees {bytes : Bytes} :
    tree.read directory name = .ok bytes ↔
      tree.Sees directory name (.file bytes) ∧ tree.MayRead directory name := by
  rw [read_eq_ok_iff]
  constructor
  · rintro ⟨path, hlook, hread⟩
    obtain ⟨hresolve, -, hlooked⟩ := look_eq_ok_iff.1 hlook
    exact ⟨⟨path, hlook⟩, path, hresolve, hlooked (by simp), hread⟩
  · rintro ⟨⟨path, hlook⟩, path', hresolve, -, hread⟩
    obtain rfl : path = path' := Except.ok.inj ((look_eq_ok_iff.1 hlook).1.symm.trans hresolve)
    exact ⟨path, hlook, hread⟩

/-- A write puts a file where one may be put. -/
theorem write_eq_ok_iff :
    tree.write directory name content = .ok tree' ↔
      name.getLast? ≠ some '/' ∧ ∃ path entry, tree.look directory name = .ok (path, entry) ∧
        tree.TakesFile path entry ∧ tree.set path (.file (Utf8.encode content)) = tree' := by
  rw [write]
  by_cases hslash : name.getLast? = some '/'
  · -- Whether the name leads anywhere or not, the answer is an error.
    rw [if_pos hslash]
    refine iff_of_false ?_ fun h => h.1 hslash
    cases checkName name with
    | error e => simp [Bind.bind, Except.bind]
    | ok u =>
      cases tree.walk (origin directory name) (componentsAround name ++ [[]]) <;>
        simp [Bind.bind, Except.bind]
  · rw [if_neg hslash]
    cases tree.look directory name with
    | error e => simp [Bind.bind, Except.bind]
    | ok found =>
      obtain ⟨path, entry⟩ := found
      simp only [Bind.bind, Except.bind, Except.ok.injEq, Prod.mk.injEq, ne_eq, hslash,
        not_false_eq_true, true_and, and_assoc, exists_and_left, exists_eq_left']
      cases entry with
      | some entry =>
        cases entry with
        | directory => simp [TakesFile]
        | file bytes =>
          rw [TakesFile, ← allow_eq_ok_iff]
          cases tree.allow path .write <;> simp
      | none =>
        rw [TakesFile, ← allow_eq_ok_iff]
        cases tree.isDirectory path.dropLast with
        | false => simp
        | true => cases tree.allow path.dropLast .write <;> simp

theorem exists_write_iff :
    (∃ tree', tree.write directory name content = .ok tree') ↔ tree.CanWrite directory name := by
  constructor
  · rintro ⟨tree', hwrite⟩
    obtain ⟨hslash, path, entry, hlook, htakes, -⟩ := write_eq_ok_iff.1 hwrite
    exact ⟨hslash, path, entry, hlook, htakes⟩
  · rintro ⟨hslash, path, entry, hlook, htakes⟩
    exact ⟨_, write_eq_ok_iff.2 ⟨hslash, path, entry, hlook, htakes, rfl⟩⟩

/-- No directory stands where a file may be put. -/
theorem TakesFile.ne_directory {path : Path} {entry : Option FileEntry}
    (h : tree.TakesFile path entry) : entry ≠ some .directory := by
  rintro rfl
  exact h

/-- A write changes what stands at one path, and before and after it the name leads there. -/
theorem exists_of_write (h : tree.write directory name content = .ok tree') :
    ∃ path, tree.resolve directory name = .ok path ∧ tree'.resolve directory name = .ok path ∧
      tree'.refusals = tree.refusals ∧
      ∀ p, tree'.get? p
        = if p = path then some (.file (Utf8.encode content)) else tree.get? p := by
  obtain ⟨-, path, entry, hlook, htakes, rfl⟩ := write_eq_ok_iff.1 h
  obtain ⟨hresolve, rfl, -⟩ := look_eq_ok_iff.1 hlook
  have hdirectory := htakes.ne_directory
  have hne : path ≠ [] := by
    rintro rfl
    exact hdirectory rfl
  obtain ⟨hcheck, hwalk⟩ := resolve_eq_ok_iff.1 hresolve
  exact ⟨path, hresolve, resolve_eq_ok_iff.2 ⟨hcheck, walk_set hdirectory _ hwalk⟩, rfl,
    fun p => tree.get?_set hne _ p⟩

/-- **What was written under a name is read under it**, if it may be read. -/
theorem read_of_write (h : tree.write directory name content = .ok tree')
    (hread : tree.MayRead directory name) :
    tree'.read directory name = .ok (Utf8.encode content) := by
  obtain ⟨path, hresolve, hresolve', hrefusals, hget⟩ := exists_of_write h
  obtain ⟨path', hresolve'', hlook, hread⟩ := hread
  obtain rfl : path = path' := Except.ok.inj (hresolve.symm.trans hresolve'')
  refine read_eq_ok_iff.2 ⟨path, look_eq_ok_iff.2 ⟨hresolve', ?_, fun _ => ?_⟩, ?_⟩
  · rw [hget, if_pos rfl]
  · rw [refusal?_congr hrefusals, hlook]
  · rw [refusal?_congr hrefusals, hread]

theorem readText_of_write (h : tree.write directory name content = .ok tree')
    (hread : tree.MayRead directory name) : tree'.readText directory name = .ok content := by
  unfold readText
  rw [read_of_write h hread]
  show asText (Utf8.encode content) = .ok content
  rw [asText, Utf8.decode?_encode]

/-! ### A file that can be read -/

section
variable {bytes : Bytes} (h : tree.read directory name = .ok bytes)
include h

/-- A slash at the end would lead to a directory. -/
theorem getLast?_ne_slash_of_read : name.getLast? ≠ some '/' := by
  intro hslash
  obtain ⟨path, hlook, -⟩ := read_eq_ok_iff.1 h
  obtain ⟨hresolve, hget, -⟩ := look_eq_ok_iff.1 hlook
  obtain ⟨first, names, hnames⟩ := components_of_slash hslash
  have hwalk := (resolve_eq_ok_iff.1 hresolve).2
  rw [hnames] at hwalk
  have hdirectory := isDirectory_of_walk hwalk
  rw [hget] at hdirectory
  simp at hdirectory

/-- A file that can be read can be written to, unless just that is refused. -/
theorem canWrite_iff_of_read :
    tree.CanWrite directory name ↔
      ∀ path, tree.resolve directory name = .ok path → tree.refusal? path .write = none := by
  obtain ⟨path, hlook, -⟩ := read_eq_ok_iff.1 h
  have hresolve := (look_eq_ok_iff.1 hlook).1
  constructor
  · rintro ⟨-, path', entry, hlook', htakes⟩ path'' hresolve'
    obtain ⟨rfl, rfl⟩ := Prod.mk.inj (Except.ok.inj (hlook.symm.trans hlook'))
    obtain rfl : path = path'' := Except.ok.inj (hresolve.symm.trans hresolve')
    exact htakes
  · intro hrefusal
    exact ⟨getLast?_ne_slash_of_read h, path, _, hlook, hrefusal path hresolve⟩

/-- A file that could be read and written can be written again. -/
theorem canWrite_of_write (hwrite : tree.write directory name content = .ok tree') :
    tree'.CanWrite directory name := by
  have hread' := read_of_write hwrite (read_eq_ok_iff_sees.1 h).2
  have hrefusal := (canWrite_iff_of_read h).1 (exists_write_iff.1 ⟨tree', hwrite⟩)
  obtain ⟨path, hresolve, hresolve', hrefusals, -⟩ := exists_of_write hwrite
  refine (canWrite_iff_of_read hread').2 fun path' hresolve'' => ?_
  obtain rfl : path = path' := Except.ok.inj (hresolve'.symm.trans hresolve'')
  rw [refusal?_congr hrefusals, hrefusal path hresolve]

end

/-! ### Detours -/

/-- A name that goes through the directory where it starts, again and again. -/
def detour : Nat → Text → Text
  | 0, name => name
  | n + 1, name => '.' :: '/' :: detour n name

theorem two_mul_le_length_encode_detour (n : Nat) (name : Text) :
    2 * n ≤ (Utf8.encode (detour n name)).length := by
  induction n with
  | zero => simp
  | succ n ih =>
    have hdot : String.utf8EncodeChar '.' = [46] := rfl
    have hslash : String.utf8EncodeChar '/' = [47] := rfl
    rw [Utf8.encode] at ih
    simp only [detour, Utf8.encode, List.flatMap_cons, hdot, hslash, List.length_append,
      List.length_singleton]
    omega

theorem nul_notMem_detour (h : '\x00' ∉ name) (n : Nat) : '\x00' ∉ detour n name := by
  induction n with
  | zero => exact h
  | succ n ih => simpa [detour] using ih

/-- A detour is no obstacle by itself. -/
theorem walk_detour {start : Path} (hstart : tree.get? start = some .directory) (n : Nat)
    (name : Text) :
    tree.openly.walk start (components (detour n name))
      = tree.openly.walk start (components name) := by
  induction n with
  | zero => rfl
  | succ n ih =>
    have hallow : tree.openly.allow start .enter = .ok () := rfl
    have hcomponents : components (detour (n + 1) name)
        = ['.'] :: components (detour n name) := by
      simp [detour, components]
    rw [hcomponents, walk, get?_openly, hstart, ← ih]
    simp [hallow]

theorem exists_components (t : Text) : ∃ first names, components t = first :: names := by
  cases t with
  | nil => exact ⟨_, _, rfl⟩
  | cons c t =>
    rw [components]
    split
    · exact ⟨_, _, rfl⟩
    · split
      · exact ⟨_, _, rfl⟩
      · exact ⟨_, _, rfl⟩

theorem stands_detour {entry : FileEntry} (h : tree.Stands directory name entry)
    (hrelative : name.head? ≠ some '/') (n : Nat) :
    tree.Stands directory (detour n name) entry := by
  obtain ⟨hname, hnul, path, hwalk, hget⟩ := h
  have horigin : origin directory name = directory := if_neg hrelative
  have horigin' : origin directory (detour n name) = directory := by
    cases n with
    | zero => exact horigin
    | succ n => rfl
  have hdirectory : tree.get? directory = some .directory := by
    obtain ⟨first, names, hnames⟩ := exists_components name
    rw [hnames, horigin] at hwalk
    exact (walk_cons_eq_ok_iff.1 hwalk).1
  refine ⟨?_, ?_, path, ?_, hget⟩
  · cases n with
    | zero => exact hname
    | succ n => exact List.cons_ne_nil _ _
  · exact nul_notMem_detour hnul n
  · rw [horigin', walk_detour hdirectory, ← horigin, hwalk]

/-- After a long detour the name is too long. -/
theorem not_inView_detour {n : Nat} (h : maxName ≤ 2 * n) (directory : Path) (name : Text) :
    ¬ tree.InView directory (detour n name) := by
  intro hview
  have hlength := two_mul_le_length_encode_detour n name
  have hshort := hview.short
  omega

end FileTree
end PullPlan
