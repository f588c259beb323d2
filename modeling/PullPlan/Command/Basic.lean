import PullPlan.Failure
import PullPlan.Git.Head
import PullPlan.Plan.Summary

/-!
# Commands

A command is run in surroundings that stay as they are, and on a tree of files that it may change.
It prints text and ends with an answer or a failure; what was printed before a failure stays
printed. Commands are put together with `do`: a failure ends the whole, and otherwise the printed
texts follow each other. Printing itself is taken to succeed.
-/

namespace PullPlan

/-- What a command finds around it, the files apart. -/
structure Surroundings where
  /-- The directory in which the command runs. -/
  directory : Path
  /-- The environment variables of the process. -/
  variableOf : Text → Option Text
  /-- The objects of the repository. -/
  objects : Git.ObjectStore
  /-- What comes in on the standard input. -/
  input : Bytes
  /-- The network. -/
  network : GitHub.Network
  /-- Whether the output is coloured. -/
  colored : Bool
  /-- The error with which the system refuses the threads that requests are run on, if it does. -/
  runtimeRefusal : Option SystemError := none
  /-- The error with which the system refuses to tell the directory, if it does. -/
  directoryRefusal : Option SystemError := none
  /-- Whether a client can be set up for sending requests. -/
  hasTransport : Bool := true

/-- What a command did. -/
structure Outcome (α : Type) where
  /-- The text on the standard output. -/
  output : Text
  /-- The text on the standard error. -/
  notes : Text
  /-- The files afterwards. -/
  files : FileTree
  /-- The answer. -/
  result : Except Failure α

/-- Something to do in given surroundings with given files. -/
def Command (α : Type) : Type := Surroundings → FileTree → Outcome α

namespace Command

variable {α β : Type}

/-- Answers without doing anything. -/
def answer (a : α) : Command α := fun _ files => ⟨[], [], files, .ok a⟩

/-- Does one thing and then, unless that failed, another one that depends on its answer. -/
def andThen (first : Command α) (next : α → Command β) : Command β := fun surroundings files =>
  let before := first surroundings files
  match before.result with
  | .error e => ⟨before.output, before.notes, before.files, .error e⟩
  | .ok a =>
    let behind := next a surroundings before.files
    ⟨before.output ++ behind.output, before.notes ++ behind.notes, behind.files, behind.result⟩

instance : Monad Command where
  pure := answer
  bind := andThen

@[simp] theorem pure_apply (a : α) (s : Surroundings) (files : FileTree) :
    (pure a : Command α) s files = ⟨[], [], files, .ok a⟩ := rfl

/-- After a failure nothing more is done. -/
theorem bind_of_error {first : Command α} {next : α → Command β} {s : Surroundings}
    {files : FileTree} {e : Failure} (h : (first s files).result = .error e) :
    (first >>= next) s files =
      ⟨(first s files).output, (first s files).notes, (first s files).files, .error e⟩ := by
  show andThen first next s files = _
  simp only [andThen]
  rw [h]

/-- After an answer, the next command goes on with it and with the files as they are then. -/
theorem bind_of_ok {first : Command α} {next : α → Command β} {s : Surroundings}
    {files : FileTree} {a : α} (h : (first s files).result = .ok a) :
    (first >>= next) s files =
      ⟨(first s files).output ++ (next a s (first s files).files).output,
        (first s files).notes ++ (next a s (first s files).files).notes,
        (next a s (first s files).files).files, (next a s (first s files).files).result⟩ := by
  show andThen first next s files = _
  simp only [andThen]
  rw [h]

/-- What follows a command depends on what that did there. -/
theorem bind_congr {first first' : Command α} {next : α → Command β} {s : Surroundings}
    {files : FileTree} (h : first s files = first' s files) :
    (first >>= next) s files = (first' >>= next) s files := by
  show andThen first next s files = andThen first' next s files
  simp only [andThen, h]

/-- A command that only answers leaves no trace in front of the next one. -/
theorem bind_of_answers {first : Command α} {next : α → Command β} {s : Surroundings}
    {files : FileTree} {a : α} (h : first s files = ⟨[], [], files, .ok a⟩) :
    (first >>= next) s files = next a s files := by
  rw [bind_of_ok (congrArg Outcome.result h), h]
  rfl

/-- A command that only fails is all that is done. -/
theorem bind_of_fails {first : Command α} {next : α → Command β} {s : Surroundings}
    {files : FileTree} {e : Failure} (h : first s files = ⟨[], [], files, .error e⟩) :
    (first >>= next) s files = ⟨[], [], files, .error e⟩ := by
  rw [bind_of_error (congrArg Outcome.result h), h]

/-- Answers what is known, or fails. -/
def ofExcept (known : Except Failure α) : Command α := fun _ files => ⟨[], [], files, known⟩

/-- Answers by looking at the surroundings and the files, or fails. -/
def look (known : Surroundings → FileTree → Except Failure α) : Command α :=
  fun surroundings files => ⟨[], [], files, known surroundings files⟩

/-- Changes the files, or fails and leaves them alone. -/
def change (changed : Surroundings → FileTree → Except Failure FileTree) : Command Unit :=
  fun surroundings files =>
    match changed surroundings files with
    | .ok files => ⟨[], [], files, .ok ()⟩
    | .error e => ⟨[], [], files, .error e⟩

/-- Prints a text that depends on whether colours are wanted. -/
def print (text : Bool → Text) : Command Unit := fun surroundings files =>
  ⟨text surroundings.colored, [], files, .ok ()⟩

/-- Prints a line. -/
def say (line : Text) : Command Unit := print fun _ => line ++ ['\n']

/-- Prints a line in a style. -/
def sayIn (style : Style) (line : Text) : Command Unit :=
  print fun colored => style.paint colored line ++ ['\n']

/-- Prints a line in a style on the standard error. -/
def noteIn (style : Style) (line : Text) : Command Unit := fun surroundings files =>
  ⟨[], style.paint surroundings.colored line ++ ['\n'], files, .ok ()⟩

/-- Prints a plan. -/
def printPlan (json : Bool) (plan : Plan) : Command Unit :=
  print fun colored => plan.printed json colored

end Command
end PullPlan
