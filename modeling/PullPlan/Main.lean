import PullPlan.CommandLine.Run

/-!
# The program

The outer layer: it copies the files that the arguments and the repository name into a tree, runs
the tool on it, prints what the tool printed and writes the file that the tool changed. Every
decision is made by `CommandLine.run`.

There is no network here, so every request of the tool fails; and ids of commits are believed
without a look at the objects. Of what the system refuses, a missing permission is told from a
missing file, and nothing else is.
-/

namespace PullPlan
namespace Program

/-! ### Reading files -/

/-- What comes of reading what stands at a path. -/
inductive Finding where
  /-- There is a file with a content. -/
  | file (content : Bytes)
  /-- There is a directory where a file was wanted, or a file where a directory was. -/
  | wrongKind
  /-- The permission is missing. -/
  | denied
  /-- There is nothing to be seen. -/
  | nothing

/-- Tries to read what stands at a path. -/
def tryRead (path : Path) : IO Finding := do
  try
    let content ← IO.FS.readBinFile (String.ofList (FileTree.nameOf path))
    return .file content.toList
  catch e =>
    match e with
    | .inappropriateType .. => return .wrongKind
    | .permissionDenied .. => return .denied
    | _ => return .nothing

/-- What comes of looking up a name in a directory that no entry can have. It is too long, but a
missing permission is noticed first, and so is a file in the place of the directory. -/
def tryEnter (path : Path) : IO Finding :=
  tryRead (path ++ [List.replicate (FileTree.maxComponent + 1) 'x'])

/-- Copies what stands at a path into a tree, if it is seen there. -/
def copyEntry (tree : FileTree) (path : Path) : IO FileTree := do
  match ← tryRead path with
  | .file content => return tree.set path (.file content)
  | .wrongKind => return tree.set path .directory
  | .denied =>
    let entry : FileEntry := match ← tryEnter path with
      | .wrongKind => .file []
      | _ => .directory
    return (tree.set path entry).refuse path .read .permissionDenied
  | .nothing => return tree

/-- Copies what stands at each step of a walk from a path into a tree. -/
def copy (tree : FileTree) (path : Path) : List Text → IO FileTree
  | [] => return tree
  | name :: rest => do
    if name.isEmpty then copy tree path rest
    else
      match ← tryEnter path with
      | .denied => return tree.refuse path .enter .permissionDenied
      | _ =>
        if name = ['.'] then copy tree path rest
        else if name = ['.', '.'] then copy tree path.dropLast rest
        else do
          let path := path ++ [name]
          let tree ← copyEntry tree path
          if tree.isDirectory path then copy tree path rest else return tree

/-- Copies what a name means, seen from a directory. -/
def copyName (directory : Path) (tree : FileTree) (name : Text) : IO FileTree :=
  copy tree (if name.head? = some '/' then [] else directory) (FileTree.components name)

/-- Copies what several names mean. -/
def copyNames (directory : Path) (tree : FileTree) (names : List Text) : IO FileTree :=
  names.foldlM (copyName directory) tree

/-- Copies whether the file under a name may be written to. Whether a file can be made in a
directory is only found out when it is made. -/
def copyWritable (directory : Path) (tree : FileTree) (name : Text) : IO FileTree := do
  match tree.look directory name with
  | .ok (path, some (.file _)) =>
    try
      let _ ← IO.FS.Handle.mk (String.ofList (FileTree.nameOf path)) .append
      return tree
    catch e =>
      match e with
      | .permissionDenied .. => return tree.refuse path .write .permissionDenied
      | _ => return tree
  | _ => return tree

/-- The names of files that an invocation may write. -/
def writtenBy (invocation : CommandLine.Invocation) : List Text :=
  match invocation.action with
  | .apply _ request => request.merged.toList
  | _ => []

/-- The names of files that an invocation may read or write. -/
def namesOf (invocation : CommandLine.Invocation) : List Text :=
  (invocation.config.getD Settings.fileName) ::
    match invocation.action with
    | .parse input comments _ _ => input :: comments
    | .apply _ request => request.runnerConfig :: request.merged.toList
    | _ => []

/-! ### Reading a repository -/

/-- What is copied of a repository's directory, its configuration apart. -/
def repositoryNames : List Text :=
  ["HEAD".toList, "commondir".toList, "gitdir".toList, "shallow".toList, "info/grafts".toList,
    "packed-refs".toList, "objects".toList, "refs".toList]

/-- Copies a configuration and the files that it may include. The second argument is the number of
files that may still be copied in a row. -/
def copyConfig (tree : FileTree) : Nat → Path → Text → IO FileTree
  | 0, _, _ => return tree
  | depth + 1, directory, name => do
    let tree ← copyName directory tree name
    match Git.follow? tree directory name with
    | none => return tree
    | some path =>
      match (Git.textAt? tree path).bind Git.Config.ofText? with
      | none => return tree
      | some config =>
        let included := config.entries.filter fun entry =>
          Text.opensWith "include".toList entry.name
        (included.filterMap Git.Config.Entry.value).foldlM
          (fun tree name => copyConfig tree depth path.dropLast name) tree

/-- Copies what the configuration of a repository names as its working tree. -/
def copyTreeName (tree : FileTree) (repository : Git.Repository) : IO FileTree :=
  let config := (repository.config? tree).getD ⟨[]⟩
  match (config.find? "core.worktree".toList).bind Git.Config.Entry.value with
  | some name => copyName repository.own tree name
  | none => return tree

/-- Copies a repository's directory and the one that it shares with others. -/
def copyRepository (tree : FileTree) (own : Path) : IO FileTree := do
  let tree ← copyNames own tree repositoryNames
  let (tree, common) ← match Git.textAt? tree (own ++ ["commondir".toList]) with
    | none => pure (tree, own)
    | some content => do
      let name := Git.heldName content
      let tree ← copyName own tree name
      pure (tree, (Git.follow? tree own name).getD own)
  let tree ← copyNames common tree repositoryNames
  let tree ← copyConfig tree Git.Config.maxDepth common "config".toList
  let tree ← copyConfig tree Git.Config.maxDepth own "config.worktree".toList
  copyTreeName tree ⟨own, common⟩

/-- Copies the repository that may be at a path. The second argument is the number of files `.git`
that may still lead to another place. -/
def copyAt (tree : FileTree) : Nat → Path → IO FileTree
  | 0, path => copyRepository tree path
  | links + 1, path => do
    let tree ← copyName path tree ".git".toList
    let tree ← copyRepository tree path
    match tree.get? (path ++ [".git".toList]) with
    | none => return tree
    | some .directory => copyAt tree links (path ++ [".git".toList])
    | some (.file content) =>
      match Text.after? "gitdir:".toList (Git.trimBack (Utf8.decodeLossy content)) with
      | none => return tree
      | some name =>
        let name := Git.beforeNul (Git.trimFront name)
        let tree ← copyName path tree name
        match Git.follow? tree path name with
        | some path => copyAt tree links path
        | none => return tree

/-- Copies the references that a name leads to. -/
def copyReferences (tree : FileTree) (repository : Git.Repository) : Nat → Text → IO FileTree
  | 0, _ => return tree
  | hops + 1, name => do
    let tree ← copyName (repository.baseOf name) tree name
    match Git.reference? tree repository name with
    | some (.symbolic next) =>
      copyReferences tree repository hops ((Git.normalName? next).getD next)
    | _ => return tree

/-- Copies the repository around a directory. -/
def copyHead (tree : FileTree) (directory : Path) : IO FileTree := do
  let places := Git.ancestors (directory.length - 1) directory
  let tree ← places.foldlM (fun tree path => copyAt tree 2 path) tree
  match Git.repositoryAround? tree directory with
  | none => return tree
  | some repository => copyReferences tree repository (Git.maxHops + 2) "HEAD".toList

/-! ### Running -/

/-- The environment variables that the tool looks at. -/
def variableNames : List Text :=
  CommandLine.numberVariable :: "CLICOLOR_FORCE".toList :: GitHub.Client.tokenVariables

/-- Reads environment variables. -/
def readVariables : List Text → IO (List (Text × Text))
  | [] => return []
  | name :: rest => do
    let more ← readVariables rest
    match ← IO.getEnv (String.ofList name) with
    | some value => return (name, value.toList) :: more
    | none => return more

/-- Reads a stream to its end. -/
partial def readAll (stream : IO.FS.Stream) (earlier : ByteArray) : IO ByteArray := do
  let chunk ← stream.read 65536
  if chunk.isEmpty then return earlier else readAll stream (earlier ++ chunk)

/-- Writes the files that are new in a tree or have another content. -/
def writeChanges (before behind : FileTree) : IO Unit := do
  for (path, entry) in behind.entries do
    match entry with
    | .file content =>
      if before.content? path ≠ some content then
        IO.FS.writeBinFile (String.ofList (FileTree.nameOf path)) (ByteArray.mk content.toArray)
    | .directory => pure ()

/-- Runs the tool with arguments; the answer is the exit status. -/
def run (arguments : List Text) : IO UInt32 := do
  let workingName := (← IO.currentDir).toString.toList
  let directory := (FileTree.components workingName).filter fun name => !name.isEmpty
  let set ← readVariables variableNames
  let variableOf (name : Text) : Option Text := set.lookup name
  let (tree, input) ← match CommandLine.Invocation.ofArguments variableOf arguments with
    | .error _ => pure (FileTree.empty, ByteArray.empty)
    | .ok invocation =>
      let tree ← copyName directory FileTree.empty workingName
      let tree ← copyNames directory tree (namesOf invocation)
      let tree ← (writtenBy invocation).foldlM (copyWritable directory) tree
      let tree ← copyHead tree directory
      let input ← match invocation.action with
        | .parse ['-'] _ _ _ => readAll (← IO.getStdin) ByteArray.empty
        | _ => pure ByteArray.empty
      pure (tree, input)
  let surroundings : Surroundings :=
    { directory := directory
      variableOf := variableOf
      objects := fun _ _ => some .commit
      input := input.toList
      network := fun _ => none
      colored := false }
  let report := CommandLine.run arguments surroundings tree
  writeChanges tree report.files
  (← IO.getStdout).putStr (String.ofList report.output)
  (← IO.getStderr).putStr (String.ofList report.notes)
  return UInt32.ofNat report.exit

end Program
end PullPlan

/-- Runs the tool. -/
def main (arguments : List String) : IO UInt32 :=
  PullPlan.Program.run (arguments.map String.toList)
