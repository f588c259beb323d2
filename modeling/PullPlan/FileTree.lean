import PullPlan.Text.Utf8

/-!
# File trees

The files that a command sees are a value: a tree of directories and files, with paths from its
root. A name is resolved component by component from a directory, and everything before the last
component has to be a directory.

The system may refuse to do something at a path, for want of a permission or because the medium
fails. `FileTree.refusals` says where it does and with which error. So a file can be there without
being seen: looking at it is refused, or entering a directory on the way to it.

`FileTree.write` is all or nothing: it fails and changes nothing, or replaces one file as a whole.
-/

namespace PullPlan

/-- The components of a path from the root. -/
abbrev Path := List Text

/-- An error of the system: its number and its wording. -/
structure SystemError where
  /-- The number. -/
  code : Nat
  /-- The wording. -/
  wording : Text
  deriving DecidableEq

/-- A permission is missing. -/
def SystemError.permissionDenied : SystemError := ⟨13, "Permission denied".toList⟩

/-- The wording of an error, with its number. -/
def SystemError.message (error : SystemError) : Text :=
  error.wording ++ " (os error ".toList ++ Text.ofNat error.code ++ [')']

/-- Why a file cannot be read or written. -/
inductive FileError where
  /-- There is no such file. -/
  | notFound
  /-- A component before the last one is a file. -/
  | notDirectory
  /-- The name is the name of a directory. -/
  | isDirectory
  /-- The name or a component of it is too long. -/
  | nameTooLong
  /-- The name holds the character U+0000. -/
  | nulInName
  /-- The content is not the encoding of a text. -/
  | notText
  /-- The system refused to do it. -/
  | refused (error : SystemError)
  deriving DecidableEq

/-- The wording of an error. -/
def FileError.message : FileError → Text
  | .notFound => "No such file or directory (os error 2)".toList
  | .notDirectory => "Not a directory (os error 20)".toList
  | .isDirectory => "Is a directory (os error 21)".toList
  | .nameTooLong => "File name too long (os error 36)".toList
  | .nulInName => "file name contained an unexpected NUL byte".toList
  | .notText => "stream did not contain valid UTF-8".toList
  | .refused error => error.message

/-- What stands at a path. -/
inductive FileEntry where
  | file (content : Bytes)
  | directory
  deriving DecidableEq

/-- What is done at a path. -/
inductive Access where
  /-- Looking up a name in a directory. -/
  | enter
  /-- Looking at what stands there, which comes before reading it and writing to it. -/
  | look
  /-- Reading what stands there. -/
  | read
  /-- Writing to a file, or making one in a directory. -/
  | write
  deriving DecidableEq

/-- Files and directories by their paths. -/
structure FileTree where
  /-- The paths below the root and what stands there; the first entry of a path counts. -/
  entries : List (Path × FileEntry)
  /-- What the system refuses to do at a path, and the error; the first entry counts. -/
  refusals : List ((Path × Access) × SystemError) := []

namespace FileTree

/-- The tree with nothing but its root. -/
def empty : FileTree := { entries := [] }

instance : Inhabited FileTree := ⟨empty⟩

/-- What stands at a path. -/
def get? (tree : FileTree) (path : Path) : Option FileEntry :=
  if path.isEmpty then some .directory
  else (tree.entries.find? fun e => e.1 = path).map (·.2)

/-- Puts an entry at a path. -/
def set (tree : FileTree) (path : Path) (entry : FileEntry) : FileTree :=
  { tree with entries := (path, entry) :: tree.entries.filter fun e => e.1 ≠ path }

/-- Removes the entry at a path. -/
def remove (tree : FileTree) (path : Path) : FileTree :=
  { tree with entries := tree.entries.filter fun e => e.1 ≠ path }

/-- Setting an entry changes what stands at its path and nothing else. -/
theorem get?_set (tree : FileTree) {path : Path} (h : path ≠ []) (entry : FileEntry)
    (p : Path) :
    (tree.set path entry).get? p = if p = path then some entry else tree.get? p := by
  by_cases hp : p = path
  · subst hp
    simp [get?, set, h]
  · rw [if_neg hp]
    have hne : path ≠ p := fun e => hp e.symm
    simp only [get?, set, List.find?_cons, List.find?_filter, hne, decide_false]
    congr 3
    funext e
    by_cases he : e.1 = p
    · simp [he, hp]
    · simp [he]

/-- Makes a directory and those around it; `above` is the path before the given components. -/
def makeDirectories (tree : FileTree) (above : Path) : Path → FileTree
  | [] => tree
  | name :: rest =>
    let path := above ++ [name]
    let tree := match tree.get? path with
      | some _ => tree
      | none => tree.set path .directory
    makeDirectories tree path rest

/-- Puts a file at a path and makes the directories around it. -/
def add (tree : FileTree) (path : Path) (content : Bytes) : FileTree :=
  (tree.makeDirectories [] path.dropLast).set path (.file content)

/-- Whether a directory stands at a path. -/
def isDirectory (tree : FileTree) (path : Path) : Bool := tree.get? path = some .directory

/-- The content of the file at a path. -/
def content? (tree : FileTree) (path : Path) : Option Bytes :=
  match tree.get? path with
  | some (.file content) => some content
  | _ => none

/-! ### Refusals -/

/-- The error with which something is refused at a path, if it is. -/
def refusal? (tree : FileTree) (path : Path) (access : Access) : Option SystemError :=
  tree.refusals.lookup (path, access)

/-- Fails if something is refused at a path. -/
def allow (tree : FileTree) (path : Path) (access : Access) : Except FileError Unit :=
  match tree.refusal? path access with
  | some error => .error (.refused error)
  | none => .ok ()

/-- Refuses something at a path. -/
def refuse (tree : FileTree) (path : Path) (access : Access) (error : SystemError) : FileTree :=
  { tree with refusals := ((path, access), error) :: tree.refusals }

/-! ### Names -/

/-- Splits a name at each slash. -/
def components : Text → List Text
  | [] => [[]]
  | c :: t =>
    if c = '/' then [] :: components t
    else
      match components t with
      | [] => [[c]]
      | name :: more => (c :: name) :: more

/-- The name of a path from the root. -/
def nameOf (path : Path) : Text :=
  if path.isEmpty then ['/'] else path.flatMap fun name => '/' :: name

/-- The most bytes that a component may have. -/
def maxComponent : Nat := 255

/-- A name has fewer bytes than this. -/
def maxName : Nat := 4096

/-- Follows components from a path. The path has to be a directory at each step, also where the
component is empty. All other components are looked up in it, even a dot. -/
def walk (tree : FileTree) (path : Path) : List Text → Except FileError Path
  | [] => .ok path
  | name :: rest =>
    match tree.get? path with
    | none => .error .notFound
    | some (.file _) => .error .notDirectory
    | some .directory =>
      if name.isEmpty then walk tree path rest
      else
        match tree.allow path .enter with
        | .error e => .error e
        | .ok () =>
          if name = ['.'] then walk tree path rest
          else if name = ['.', '.'] then walk tree path.dropLast rest
          else if maxComponent < (Utf8.encode name).length then .error .nameTooLong
          else walk tree (path ++ [name]) rest

/-- The path from which a name is followed: the root for a name that starts with a slash. -/
def origin (directory : Path) (name : Text) : Path :=
  if name.head? = some '/' then [] else directory

/-- Refuses what cannot be a name. -/
def checkName (name : Text) : Except FileError Unit :=
  if name.isEmpty then .error .notFound
  else if name.contains '\x00' then .error .nulInName
  else if maxName ≤ (Utf8.encode name).length then .error .nameTooLong
  else .ok ()

/-- The path that a name means, seen from a directory. There need not be anything at it. -/
def resolve (tree : FileTree) (directory : Path) (name : Text) : Except FileError Path := do
  checkName name
  tree.walk (origin directory name) (components name)

/-- Looks at what a name means: its path, and what stands there. -/
def look (tree : FileTree) (directory : Path) (name : Text) :
    Except FileError (Path × Option FileEntry) := do
  let path ← tree.resolve directory name
  match tree.get? path with
  | none => .ok (path, none)
  | some entry =>
    tree.allow path .look
    .ok (path, some entry)

/-- Whether a name is seen to mean something. Where looking fails, nothing is seen. -/
def has (tree : FileTree) (directory : Path) (name : Text) : Bool :=
  match tree.look directory name with
  | .ok (_, entry) => entry.isSome
  | .error _ => false

/-! ### Reading and writing -/

/-- The bytes of a file. -/
def read (tree : FileTree) (directory : Path) (name : Text) : Except FileError Bytes := do
  let (path, entry) ← tree.look directory name
  match entry with
  | none => .error .notFound
  | some entry =>
    tree.allow path .read
    match entry with
    | .file content => .ok content
    | .directory => .error .isDirectory

/-- The text of a list of bytes. -/
def asText (bytes : Bytes) : Except FileError Text :=
  match Utf8.decode? bytes with
  | some t => .ok t
  | none => .error .notText

/-- The text of a file. -/
def readText (tree : FileTree) (directory : Path) (name : Text) : Except FileError Text := do
  let bytes ← tree.read directory name
  asText bytes

/-- The components of a name before its last one; slashes at the end do not count. -/
def componentsAround (name : Text) : Path :=
  (((components name).reverse.dropWhile List.isEmpty).drop 1).reverse

/-- Puts a text into a file, over what it held before. The directory around it has to be there. A
name with a slash at its end is the name of a directory, whatever stands there. -/
def write (tree : FileTree) (directory : Path) (name : Text) (content : Text) :
    Except FileError FileTree := do
  if name.getLast? = some '/' then
    checkName name
    let _ ← tree.walk (origin directory name) (componentsAround name ++ [[]])
    .error .isDirectory
  else
    let (path, entry) ← tree.look directory name
    match entry with
    | some .directory => .error .isDirectory
    | some (.file _) =>
      tree.allow path .write
      .ok (tree.set path (.file (Utf8.encode content)))
    | none =>
      if tree.isDirectory path.dropLast then
        tree.allow path.dropLast .write
        .ok (tree.set path (.file (Utf8.encode content)))
      else .error .notFound

end FileTree
end PullPlan
