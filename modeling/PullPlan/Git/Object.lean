import PullPlan.Git.Sha1

/-!
# Git objects

An object is a kind and a content, and its id is the hash of both. A commit names a tree, the
commits before it, who made it and when.
-/

namespace PullPlan
namespace Git

/-- The kinds of objects that a repository holds here. -/
inductive ObjectKind where
  | commit
  | tree
  deriving DecidableEq

/-- The word for a kind. -/
def ObjectKind.word : ObjectKind → Text
  | .commit => "commit".toList
  | .tree => "tree".toList

/-- An object. -/
structure Object where
  /-- What the object is. -/
  kind : ObjectKind
  /-- Its content. -/
  content : Bytes
  deriving DecidableEq

/-- The id of an object: the hash of its kind, its length and its content. -/
def Object.id (object : Object) : Text :=
  let header := object.kind.word ++ ' ' :: Text.ofNat object.content.length ++ ['\x00']
  Sha1.hash (Utf8.encode header ++ object.content)

/-- The tree without entries. -/
def emptyTree : Object := ⟨.tree, []⟩

/-- What a commit records. -/
structure Commit where
  /-- The id of its tree. -/
  tree : Text
  /-- The ids of the commits before it. -/
  parents : List Text
  /-- Who made it. -/
  author : Text
  /-- When, in seconds since 1970 in universal time. -/
  time : Int
  /-- The message. -/
  message : Text

/-- A commit as an object. -/
def Commit.toObject (commit : Commit) : Object :=
  let time := (if commit.time < 0 then ['-'] else []) ++ Text.ofNat commit.time.natAbs
  let signature := commit.author ++ ' ' :: time ++ " +0000\n".toList
  let parents := commit.parents.flatMap fun parent => "parent ".toList ++ parent ++ ['\n']
  ⟨.commit, Utf8.encode
    ("tree ".toList ++ commit.tree ++ '\n' :: parents ++ "author ".toList ++ signature
      ++ "committer ".toList ++ signature ++ '\n' :: commit.message)⟩

end Git
end PullPlan
