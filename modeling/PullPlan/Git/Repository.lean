import PullPlan.Git.Config.Include
import PullPlan.Git.Config.Value

/-!
# Finding and opening a repository

* `discover?` walks upwards from a path. At each directory it tries `.git` in it and then the
  directory itself. A file `.git` names the repository's directory after `gitdir:`.
* `openAt?` looks once more at the directory that was found and checks that the repository can be
  used: its configuration, its list of cut-off commits and its working tree.
-/

namespace PullPlan
namespace Git

/-- A repository: its own directory, and the one that it shares with other working trees. -/
structure Repository where
  /-- The directory with `HEAD`. -/
  own : Path
  /-- The directory with the references and the objects. -/
  common : Path
  deriving DecidableEq

/-! ### Looking at a place -/

/-- The outcome of looking at one place. -/
inductive Found where
  /-- There is a repository. -/
  | repository (repository : Repository)
  /-- There is none. -/
  | nothing
  /-- What is there is broken, and the search ends. -/
  | broken

/-- Looks whether a directory is that of a repository. -/
def probe (files : FileTree) (directory : Path) : Found :=
  let common? := match textAt? files (directory ++ ["commondir".toList]) with
    | some content => follow? files directory (heldName content)
    | none => some directory
  match common? with
  | none => .broken
  | some common =>
    if (files.content? (directory ++ ["HEAD".toList])).isSome
        && files.isDirectory (common ++ ["objects".toList])
        && files.isDirectory (common ++ ["refs".toList]) then
      .repository ⟨directory, common⟩
    else .nothing

/-- The path that a file `.git` in a directory names. -/
def linked? (files : FileTree) (directory : Path) (content : Text) : Option Path := do
  let name ← Text.after? "gitdir:".toList (trimBack content)
  if name.isEmpty then none else follow? files directory (beforeNul (trimFront name))

/-- Looks at a path, which may be a directory or a file `.git`. Behind such a file there has to be
a repository. -/
def look (files : FileTree) (path : Path) : Found :=
  match files.get? path with
  | some .directory => probe files path
  | some (.file content) =>
    if path.getLast? = some ".git".toList then
      match (linked? files path.dropLast (Utf8.decodeLossy content)).map (probe files) with
      | some (.repository repository) => .repository repository
      | _ => .broken
    else .nothing
  | none => .nothing

/-- Searches the places of a list in order. -/
def search (files : FileTree) : List Path → Option Repository
  | [] => none
  | path :: rest =>
    match look files path with
    | .repository repository => some repository
    | .nothing => search files rest
    | .broken => none

/-- The places for the repository of a directory. -/
def placesAt (directory : Path) : List Path := [directory ++ [".git".toList], directory]

/-- A path and the paths above it, as many as the first argument says. -/
def ancestors : Nat → Path → List Path
  | 0, path => [path]
  | count + 1, path => path :: ancestors count path.dropLast

/-- Finds the repository around a path. The root is no place for it, unless the search starts
there. -/
def discover? (files : FileTree) (path : Path) : Option Repository :=
  search files ((ancestors (path.length - 1) path).flatMap placesAt)

/-! ### The configuration -/

/-- The configuration of a repository. The extension `worktreeConfig` adds a file of the working
tree's own. -/
def Repository.config? (files : FileTree) (repository : Repository) : Option Config := do
  let load := Config.load files repository.own Config.maxDepth
  let shared ← load (repository.common ++ ["config".toList])
  if ← shared.switchOf? "extensions.worktreeconfig".toList false then
    let own ← load (repository.own ++ ["config.worktree".toList])
    return shared.append own
  else return shared

/-- The version of a repository's format; `none` if what stands there is no number. -/
def formatVersion? (config : Config) : Option Int :=
  match config.find? "core.repositoryformatversion".toList with
  | none => some 0
  | some entry => entry.value.bind Config.word?

/-- The extensions that may be set from version 1 on. -/
def extensions : List Text :=
  ["noop".toList, "objectformat".toList, "preciousobjects".toList, "worktreeconfig".toList]

/-- Whether the extensions of a repository are known, and its ids are of the one known kind. -/
def hasKnownExtensions (config : Config) : Bool :=
  (config.entries.all fun entry =>
    match Text.after? "extensions.".toList entry.name with
    | some name => extensions.contains name
    | none => true)
    && match config.find? "extensions.objectformat".toList with
      | some entry => entry.value = some "sha1".toList
      | none => true

/-- Whether the format of a repository is known. -/
def hasKnownFormat (config : Config) : Bool :=
  match formatVersion? config with
  | none => false
  | some version => version < 1 || (version = 1 && hasKnownExtensions config)

/-! ### Cut-off commits -/

/-- Whether a line is a commit's id and those of the commits that stand for its parents, each
behind a space. The first argument bounds their number. -/
def isGraft : Nat → Text → Bool
  | 0, _ => false
  | count + 1, line =>
    match id? line with
    | none => false
    | some (_, []) => true
    | some (_, ['\n']) => true
    | some (_, ' ' :: rest) => isGraft count rest
    | some _ => false

/-- Whether the file at a path, if there is one, has nothing but such lines. -/
def hasGrafts (files : FileTree) (path : Path) : Bool :=
  match textAt? files path with
  | none => true
  | some content => (fullLines content).all fun line => isGraft line.length line

/-! ### The working tree -/

/-- Whether a relative name, followed step by step from a path, leads above the root. -/
def climbs : Nat → List Text → Bool
  | _, [] => false
  | depth, name :: rest =>
    if name.isEmpty || name = ['.'] then climbs depth rest
    else if name = ['.', '.'] then depth = 0 || climbs (depth - 1) rest
    else climbs (depth + 1) rest

/-- Whether a repository belongs to a working tree beside the main one. -/
def Repository.isLinked (files : FileTree) (repository : Repository) : Bool :=
  repository.own ≠ repository.common
    && (files.get? (repository.own ++ ["gitdir".toList])).isSome

/-- Whether the name of the working tree in the file `gitdir` makes sense. There need not be
anything at it. -/
def Repository.hasTreeName (files : FileTree) (repository : Repository) : Bool :=
  match textAt? files (repository.own ++ ["gitdir".toList]) with
  | none => false
  | some content =>
    let name := heldName content
    name.head? = some '/' || !climbs repository.own.length (FileTree.components name)

/-- Whether a repository has a place for its working tree, or needs none. -/
def Repository.hasTree (files : FileTree) (repository : Repository) (config : Config) : Bool :=
  match config.switchOf? "core.bare".toList false with
  | none => false
  | some bare =>
    if repository.isLinked files then repository.hasTreeName files
    else bare ||
      match (config.find? "core.worktree".toList).bind Config.Entry.value with
      | none => true
      | some name => !name.isEmpty && (follow? files repository.own name).isSome

/-! ### Opening -/

/-- Whether a repository can be used. -/
def Repository.isUsable (files : FileTree) (repository : Repository) : Bool :=
  match repository.config? files with
  | none => false
  | some config =>
    hasKnownFormat config && hasGrafts files (repository.common ++ ["info".toList, "grafts".toList])
      && hasGrafts files (repository.own ++ ["shallow".toList]) && repository.hasTree files config

/-- Opens the repository of a directory. -/
def openAt? (files : FileTree) (directory : Path) : Option Repository :=
  (search files (placesAt directory)).filter fun repository => repository.isUsable files

/-- The repository around a path. -/
def repositoryAround? (files : FileTree) (path : Path) : Option Repository :=
  (discover? files path).bind fun repository => openAt? files repository.own

end Git
end PullPlan
