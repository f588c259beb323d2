import PullPlan.Target

/-!
# What resolving a target asks for

Resolving a target may need to know which commit is checked out, and it may need an answer of the
source. A `Dialogue` is a program in which every such need is a question: it ends with a result, or
it asks and goes on with the answer. Running it records the questions in their order, so that none
of them can be asked unseen. What a run does depends on the answers to its own questions and on
nothing else (`Dialogue.run_congr`).

`Target.dialogue` is the resolution of a target as a dialogue. It ends with what `Target.resolve`
gives (`run_dialogue`), and what it asks the source is what the query of the target looks up
(`calls_eq_lookups`).
-/

namespace PullPlan
namespace Target

/-! ### Questions -/

/-- What can be asked while a target is resolved. -/
inductive Question where
  /-- Which commit is checked out? -/
  | checkedOut
  /-- What is the body of a pull request? -/
  | body (pr : PullRequest)
  /-- What are the comments of a pull request? -/
  | comments (pr : PullRequest)
  /-- Which pull request of a repository has a commit as its head? -/
  | numberOf (owner repo commit : Text)
  deriving DecidableEq

namespace Question

/-- What a question is answered with. -/
def Answer : Question → Type
  | .checkedOut => Option Text
  | .body _ => Except GitHub.Error Text
  | .comments _ => Except GitHub.Error (List Text)
  | .numberOf .. => Except GitHub.Error Nat

/-- The answer, by the commit that is checked out and a source. -/
def answer (head : Option Text) (source : GitHub.Source) : (question : Question) → question.Answer
  | .checkedOut => head
  | .body pr => source.body pr
  | .comments pr => source.comments pr
  | .numberOf owner repo commit => source.numberOf owner repo commit

/-- Whether a question is one for the source. -/
def isForSource : Question → Bool
  | .checkedOut => false
  | .body _ | .comments _ | .numberOf .. => true

end Question

/-! ### Dialogues -/

/-- A program that ends with a result, or asks a question and goes on with the answer. -/
inductive Dialogue (α : Type) where
  /-- Ends with a result. -/
  | done (result : α)
  /-- Asks a question. -/
  | ask (question : Question) (next : question.Answer → Dialogue α)

namespace Dialogue

variable {α β : Type}

/-- Goes on, from the result of a dialogue, with another one. -/
def andThen : Dialogue α → (α → Dialogue β) → Dialogue β
  | .done result, next => next result
  | .ask question go, next => .ask question fun answer => (go answer).andThen next

instance : Monad Dialogue where
  pure := done
  bind := andThen

/-- The questions that are asked, in their order, and the result. -/
def run (head : Option Text) (source : GitHub.Source) : Dialogue α → List Question × α
  | .done result => ([], result)
  | .ask question next =>
    let rest := (next (question.answer head source)).run head source
    (question :: rest.1, rest.2)

variable {head : Option Text} {source : GitHub.Source}

@[simp] theorem run_pure (result : α) : (pure result : Dialogue α).run head source = ([], result) :=
  rfl

/-- The questions of two dialogues follow each other. -/
theorem run_bind (dialogue : Dialogue α) (next : α → Dialogue β) :
    (dialogue >>= next).run head source =
      ((dialogue.run head source).1 ++ ((next (dialogue.run head source).2).run head source).1,
        ((next (dialogue.run head source).2).run head source).2) := by
  show (andThen dialogue next).run head source = _
  induction dialogue with
  | done result => rfl
  | ask question go ih => simp only [andThen, run, ih, List.cons_append]

/-- **A run depends on the answers to its own questions and on nothing else.** -/
theorem run_congr {dialogue : Dialogue α} {head' : Option Text} {source' : GitHub.Source}
    (h : ∀ question ∈ (dialogue.run head source).1,
      question.answer head source = question.answer head' source') :
    dialogue.run head' source' = dialogue.run head source := by
  induction dialogue with
  | done result => rfl
  | ask question next ih =>
    have hanswer : question.answer head source = question.answer head' source' :=
      h question List.mem_cons_self
    simp only [run]
    rw [← hanswer, ih _ fun later hlater => h later (List.mem_cons_of_mem _ hlater)]

end Dialogue

/-! ### The resolution as a dialogue -/

/-- Asks which commit is checked out, where the target names neither a number nor a commit. -/
def commitDialogue (target : Target) : Dialogue (Option Text) :=
  match target.number, target.commit with
  | none, none => .ask .checkedOut .done
  | _, commit => .done commit

/-- Asks the source for a number that is not known. -/
def numberDialogue (owner repo : Text) : GitHub.NumberQuery → Dialogue (Except GitHub.Error Nat)
  | .known number => .done (.ok number)
  | .byCommit commit => .ask (.numberOf owner repo commit) .done

/-- Resolves a target, by the configured owner and repository. -/
def dialogue (target : Target) (owner repo : Option Text) : Dialogue (Except Error PullRequest) :=
  match target.url with
  | some url =>
    match PullRequest.ofUrl url with
    | .ok pr => return .ok pr
    | .error e => return .error (.url e)
  | none =>
    match part target.owner owner with
    | none => return .error (.github .missingOwner)
    | some owner =>
      match part target.repo repo with
      | none => return .error (.github .missingRepo)
      | some repo => do
        let commit ← target.commitDialogue
        match GitHub.NumberQuery.of target.number commit with
        | .error e => return .error (.github e)
        | .ok query =>
          match ← numberDialogue owner repo query with
          | .ok number => return .ok ⟨owner, repo, number⟩
          | .error e => return .error (.github e)

/-- The questions that are asked while a target is resolved, in their order. -/
def questions (target : Target) (owner repo head : Option Text) (source : GitHub.Source) :
    List Question :=
  ((target.dialogue owner repo).run head source).1

/-- The questions among them that the source is asked. -/
def calls (target : Target) (owner repo head : Option Text) (source : GitHub.Source) :
    List Question :=
  (target.questions owner repo head source).filter Question.isForSource

variable {target : Target} {owner repo head : Option Text} {source : GitHub.Source}

/-- The question for the commit that is checked out, if the target leaves that open. -/
def commitQuestions (target : Target) : List Question :=
  if target.number = none ∧ target.commit = none then [.checkedOut] else []

theorem run_commitDialogue (target : Target) :
    target.commitDialogue.run head source = (target.commitQuestions, target.commitOr head) := by
  rcases target with ⟨_, _, number, commit, _⟩
  cases number <;> cases commit <;> rfl

/-- The source has no part in it. -/
theorem filter_commitQuestions (target : Target) :
    target.commitQuestions.filter Question.isForSource = [] := by
  unfold commitQuestions
  split <;> rfl

theorem run_numberDialogue (owner repo : Text) (query : GitHub.NumberQuery) :
    (numberDialogue owner repo query).run head source =
      (query.lookups.map (.numberOf owner repo), query.run source owner repo) := by
  cases query <;> rfl

/-! ### The dialogue is the resolution -/

/-- The repository that a target without an address means: owner and name, each as said, or else as
configured. -/
structure Names (target : Target) (owner repo : Option Text) (o r : Text) : Prop where
  url : target.url = none
  owner : part target.owner owner = some o
  repo : part target.repo repo = some r

/-- **The repository comes first.** Where the target has an address, or its repository is not named,
the result is settled without a question. -/
theorem names_or_settled (target : Target) (owner repo : Option Text) :
    (∃ o r, Names target owner repo o r) ∨
      ∃ settled : Except Error PullRequest, target.dialogue owner repo = pure settled
        ∧ ∀ head, target.query owner repo head = settled.map .known := by
  cases hurl : target.url with
  | some url =>
    refine .inr ⟨(PullRequest.ofUrl url).mapError .url, ?_, fun head => ?_⟩
    · simp only [dialogue, hurl]
      cases PullRequest.ofUrl url <;> rfl
    · simp only [query, hurl]
      cases PullRequest.ofUrl url <;> rfl
  | none =>
    cases howner : part target.owner owner with
    | none =>
      refine .inr ⟨.error (.github .missingOwner), ?_, fun head => ?_⟩
      · simp only [dialogue, hurl, howner]
      · simp only [query, hurl, howner, Except.map]
    | some o =>
      cases hrepo : part target.repo repo with
      | none =>
        refine .inr ⟨.error (.github .missingRepo), ?_, fun head => ?_⟩
        · simp only [dialogue, hurl, howner, hrepo]
        · simp only [query, hurl, howner, hrepo, Except.map]
      | some r => exact .inl ⟨o, r, hurl, howner, hrepo⟩

section
variable {o r : Text} (h : Names target owner repo o r)
include h

theorem query_of_names :
    target.query owner repo head =
      match GitHub.NumberQuery.of target.number (target.commitOr head) with
      | .error e => .error (.github e)
      | .ok number => .ok (.inRepo o r number) := by
  cases hnumber : GitHub.NumberQuery.of target.number (target.commitOr head) <;>
    simp only [query, h.url, h.owner, h.repo, hnumber]

/-- Once the repository is known, the commit may be asked for, and then the number. -/
theorem run_dialogue_of_names :
    (target.dialogue owner repo).run head source =
      match GitHub.NumberQuery.of target.number (target.commitOr head) with
      | .error e => (target.commitQuestions, .error (.github e))
      | .ok number =>
        (target.commitQuestions ++ number.lookups.map (.numberOf o r),
          (Query.inRepo o r number).run source) := by
  simp only [dialogue, h.url, h.owner, h.repo, Dialogue.run_bind, run_commitDialogue]
  cases GitHub.NumberQuery.of target.number (target.commitOr head) with
  | error e => simp
  | ok number =>
    simp only [Dialogue.run_bind, run_numberDialogue, Query.run]
    cases number.run source o r <;> simp

end

/-- **The dialogue is the resolution.** It ends with the pull request that the target means, or with
the same error. -/
theorem run_dialogue (target : Target) (owner repo head : Option Text) (source : GitHub.Source) :
    (target.dialogue owner repo).run head source
      = (target.questions owner repo head source, target.resolve owner repo head source) := by
  refine Prod.ext rfl ?_
  rcases names_or_settled target owner repo with ⟨o, r, h⟩ | ⟨settled, hdialogue, hquery⟩
  · rw [run_dialogue_of_names h, resolve, query_of_names h]
    cases GitHub.NumberQuery.of target.number (target.commitOr head) <;> rfl
  · rw [hdialogue, resolve, hquery]
    cases settled <;> rfl

/-- The source is asked what the query of the target looks up, in that order. -/
theorem calls_eq_lookups (target : Target) (owner repo head : Option Text)
    (source : GitHub.Source) :
    target.calls owner repo head source =
      match target.query owner repo head with
      | .error _ => []
      | .ok query => query.lookups.map fun (o, r, c) => .numberOf o r c := by
  rcases names_or_settled target owner repo with ⟨o, r, h⟩ | ⟨settled, hdialogue, hquery⟩
  · rw [calls, questions, run_dialogue_of_names h, query_of_names h]
    cases GitHub.NumberQuery.of target.number (target.commitOr head) with
    | error e => exact filter_commitQuestions target
    | ok number =>
      dsimp only
      rw [List.filter_append, filter_commitQuestions]
      cases number <;> rfl
  · rw [calls, questions, hdialogue, hquery]
    cases settled <;> rfl

end Target
end PullPlan
