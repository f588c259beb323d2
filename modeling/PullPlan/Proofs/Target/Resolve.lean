import PullPlan.Proofs.Target.Dialogue

/-!
# A target is checked before anything is looked up

The source is asked for the pull request of a target only where everything that the target could
lack has been checked: it has neither an address nor a number, and owner, repository and commit are
not empty (`LooksUp`, `query_eq_byCommit_iff`). Then there is one call, and the result is what the
source says (`resolve_of_looksUp`). Everywhere else the result is settled without the source
(`calls_cases`).

`resolve_validates_first` puts this together. A part that is said counts even if it is empty: it is
an error then, and neither the settings nor the commit that is checked out stand in for it.
-/

namespace PullPlan
namespace Target

variable {target : Target} {owner repo head : Option Text} {source : GitHub.Source}

/-! ### Parts of a target -/

theorem part_eq_some_iff {said configured : Option Text} {t : Text} :
    part said configured = some t ↔ said.or configured = some t ∧ t ≠ [] := by
  simp [part, Option.filter_eq_some_iff]

/-- An empty part is none, whatever is configured. -/
theorem part_empty (configured : Option Text) : part (some []) configured = none := rfl

/-- A commit is looked up where no number is known, if it is a part. -/
theorem numberQuery_eq_byCommit_iff {number : Option Nat} {commit : Option Text} {c : Text} :
    GitHub.NumberQuery.of number commit = .ok (.byCommit c) ↔
      number = none ∧ part none commit = some c := by
  cases number with
  | some n => simp [GitHub.NumberQuery.of]
  | none =>
    simp only [GitHub.NumberQuery.of, part, Option.none_or, true_and]
    cases commit.filter fun c => !c.isEmpty <;> simp

theorem commitOr_of_number_none (h : target.number = none) :
    target.commitOr head = target.commit.or head := by
  rcases target with ⟨_, _, number, commit, _⟩
  obtain rfl : number = none := h
  cases commit <;> rfl

/-- A target leaves it to the source to find its pull request: it has neither an address nor a
number, and owner, repository and commit are not empty, each as said, or else as configured or as
checked out. -/
structure LooksUp (target : Target) (owner repo head : Option Text) (o r c : Text) : Prop where
  url : target.url = none
  number : target.number = none
  owner : target.owner.or owner = some o
  repo : target.repo.or repo = some r
  commit : target.commit.or head = some c
  owner_ne_nil : o ≠ []
  repo_ne_nil : r ≠ []
  commit_ne_nil : c ≠ []

/-! ### The call -/

/-- **A commit is looked up exactly if everything else has been checked.** -/
theorem query_eq_byCommit_iff {o r c : Text} :
    target.query owner repo head = .ok (.inRepo o r (.byCommit c)) ↔
      LooksUp target owner repo head o r c := by
  constructor
  · intro h
    rcases names_or_settled target owner repo with ⟨o', r', hnames⟩ | ⟨settled, -, hquery⟩
    · rw [query_of_names hnames] at h
      cases hnumber : GitHub.NumberQuery.of target.number (target.commitOr head) with
      | error e => simp [hnumber] at h
      | ok number =>
        rw [hnumber] at h
        simp only [Except.ok.injEq, Query.inRepo.injEq] at h
        obtain ⟨rfl, rfl, rfl⟩ := h
        obtain ⟨hnone, hcommit⟩ := numberQuery_eq_byCommit_iff.1 hnumber
        obtain ⟨hcommit, hcommit_ne⟩ := part_eq_some_iff.1 hcommit
        rw [Option.none_or, commitOr_of_number_none hnone] at hcommit
        obtain ⟨howner, howner_ne⟩ := part_eq_some_iff.1 hnames.owner
        obtain ⟨hrepo, hrepo_ne⟩ := part_eq_some_iff.1 hnames.repo
        exact ⟨hnames.url, hnone, howner, hrepo, hcommit, howner_ne, hrepo_ne, hcommit_ne⟩
    · rw [hquery] at h
      cases settled <;> simp [Except.map] at h
  · intro h
    have hnames : Names target owner repo o r :=
      ⟨h.url, part_eq_some_iff.2 ⟨h.owner, h.owner_ne_nil⟩,
        part_eq_some_iff.2 ⟨h.repo, h.repo_ne_nil⟩⟩
    have hcommit : part none (target.commitOr head) = some c := by
      rw [part_eq_some_iff, Option.none_or, commitOr_of_number_none h.number]
      exact ⟨h.commit, h.commit_ne_nil⟩
    rw [query_of_names hnames, numberQuery_eq_byCommit_iff.2 ⟨h.number, hcommit⟩]

theorem calls_of_looksUp {o r c : Text} (h : LooksUp target owner repo head o r c) :
    target.calls owner repo head source = [.numberOf o r c] := by
  rw [calls_eq_lookups, query_eq_byCommit_iff.2 h]
  rfl

/-- The result is what the source says. -/
theorem resolve_of_looksUp {o r c : Text} (h : LooksUp target owner repo head o r c) :
    target.resolve owner repo head source
      = (Query.inRepo o r (.byCommit c)).run source := by
  rw [resolve, query_eq_byCommit_iff.2 h]
  rfl

theorem calls_cases (target : Target) (owner repo head : Option Text) (source : GitHub.Source) :
    target.calls owner repo head source = []
      ∨ ∃ o r c, LooksUp target owner repo head o r c
        ∧ target.calls owner repo head source = [.numberOf o r c] := by
  cases hquery : target.query owner repo head with
  | error e => exact .inl (by rw [calls_eq_lookups, hquery])
  | ok query =>
    match query with
    | .known pr => exact .inl (by rw [calls_eq_lookups, hquery]; rfl)
    | .inRepo o r (.known n) => exact .inl (by rw [calls_eq_lookups, hquery]; rfl)
    | .inRepo o r (.byCommit c) =>
      have hlooks := query_eq_byCommit_iff.1 hquery
      exact .inr ⟨o, r, c, hlooks, calls_of_looksUp hlooks⟩

/-! ### Failures -/

section
variable (hurl : target.url = none)
include hurl

theorem resolve_of_no_owner (howner : part target.owner owner = none) :
    target.resolve owner repo head source = .error (.github .missingOwner) := by
  simp only [resolve, query, hurl, howner]
  rfl

theorem resolve_of_no_repo {o : Text} (howner : part target.owner owner = some o)
    (hrepo : part target.repo repo = none) :
    target.resolve owner repo head source = .error (.github .missingRepo) := by
  simp only [resolve, query, hurl, howner, hrepo]
  rfl

/-- A repository that is not named is reported before anything else is looked at. -/
theorem resolve_of_not_named (h : ∀ o r, ¬ Names target owner repo o r) :
    ∃ e ∈ [GitHub.Error.missingOwner, .missingRepo],
      target.resolve owner repo head source = .error (.github e) := by
  cases howner : part target.owner owner with
  | none => exact ⟨_, by simp, resolve_of_no_owner hurl howner⟩
  | some o =>
    cases hrepo : part target.repo repo with
    | none => exact ⟨_, by simp, resolve_of_no_repo hurl howner hrepo⟩
    | some r => exact absurd ⟨hurl, howner, hrepo⟩ (h o r)

end

theorem resolve_of_no_commit {o r : Text} (h : Names target owner repo o r)
    (hnumber : target.number = none) (hcommit : part target.commit head = none) :
    target.resolve owner repo head source = .error (.github .missingCommit) := by
  have hquery : GitHub.NumberQuery.of target.number (target.commitOr head)
      = .error .missingCommit := by
    rw [commitOr_of_number_none hnumber, hnumber, GitHub.NumberQuery.of]
    rw [part] at hcommit
    rw [hcommit]
  rw [resolve, query_of_names h, hquery]
  rfl

/-- A failure comes without a call, or it is the one of the source, as it is. -/
theorem calls_of_error {e : Error} (h : target.resolve owner repo head source = .error e) :
    target.calls owner repo head source = []
      ∨ ∃ o r c error, target.calls owner repo head source = [.numberOf o r c]
        ∧ source.numberOf o r c = .error error ∧ e = .github error := by
  rcases calls_cases target owner repo head source with hnone | ⟨o, r, c, hlooks, hone⟩
  · exact .inl hnone
  · rw [resolve_of_looksUp hlooks, Query.run, GitHub.NumberQuery.run] at h
    cases hanswer : source.numberOf o r c with
    | ok n => simp [hanswer] at h
    | error error =>
      rw [hanswer] at h
      exact .inr ⟨o, r, c, error, hone, hanswer, (Except.error.inj h).symm⟩

/-! ### What the result depends on -/

theorem resolve_eq_of_answers {head' : Option Text} {source' : GitHub.Source}
    (h : ∀ question ∈ target.questions owner repo head source,
      question.answer head source = question.answer head' source') :
    target.resolve owner repo head' source' = target.resolve owner repo head source := by
  have hrun := Dialogue.run_congr h
  rw [run_dialogue, run_dialogue] at hrun
  exact congrArg Prod.snd hrun

/-- The source is not called exactly if it makes no difference. -/
theorem calls_eq_nil_iff :
    target.calls owner repo head source = [] ↔
      ∀ other, target.resolve owner repo head other = target.resolve owner repo head source := by
  constructor
  · intro h other
    refine resolve_eq_of_answers fun question hquestion => ?_
    have hother : question.isForSource ≠ true := List.filter_eq_nil_iff.1 h question hquestion
    cases question with
    | checkedOut => rfl
    | _ => exact absurd rfl hother
  · intro h
    rcases calls_cases target owner repo head source with hnone | ⟨o, r, c, hlooks, -⟩
    · exact hnone
    · -- A source that says something else changes the result.
      have hsame : ∀ n, (Query.inRepo o r (.byCommit c)).run source = .ok ⟨o, r, n⟩ := fun n => by
        rw [← resolve_of_looksUp hlooks, ← h ⟨source.body, source.comments, fun _ _ _ => .ok n⟩,
          resolve_of_looksUp hlooks]
        rfl
      have hdiffer := (hsame 0).symm.trans (hsame 1)
      simp at hdiffer

/-- The commit that is checked out is asked for where nothing else says which pull request of the
repository is meant. -/
theorem checkedOut_mem_questions_iff :
    .checkedOut ∈ target.questions owner repo head source ↔
      (∃ o r, Names target owner repo o r) ∧ target.number = none ∧ target.commit = none := by
  by_cases hnames : ∃ o r, Names target owner repo o r
  · obtain ⟨o, r, h⟩ := hnames
    have hmem : .checkedOut ∈ target.commitQuestions ↔
        target.number = none ∧ target.commit = none := by
      unfold commitQuestions
      split <;> simp_all
    have hsome : ∃ o r, Names target owner repo o r := ⟨o, r, h⟩
    rw [questions, run_dialogue_of_names h, ← hmem]
    cases GitHub.NumberQuery.of target.number (target.commitOr head) <;> simp [hsome]
  · obtain ⟨settled, hdialogue, -⟩ := (names_or_settled target owner repo).resolve_left hnames
    simp [questions, hdialogue, hnames]

theorem resolve_of_not_checkedOut
    (h : .checkedOut ∉ target.questions owner repo head source) (other : Option Text) :
    target.resolve owner repo other source = target.resolve owner repo head source := by
  refine resolve_eq_of_answers fun question hquestion => ?_
  cases question with
  | checkedOut => exact absurd hquestion h
  | _ => rfl

/-- **A target is checked before anything is looked up.** The recorded dialogue is the resolution.

* The source is asked at most once, and only for the number of a pull request: exactly where the
  target leaves it to the source (`LooksUp`). Its answer is the result then.
* It is not asked where an address or a number is given, nor where the resolution fails with an
  error that the source has not given. It is not asked exactly if the result is the same with all
  sources.
* Without an address, an empty owner or repository is an error, whatever is configured, and without
  a number an empty commit is one, whatever is checked out.
* Which commit is checked out is asked where the repository is named and there is neither an address
  nor a number nor a commit, and otherwise makes no difference. -/
theorem resolve_validates_first (target : Target) (owner repo head : Option Text)
    (source : GitHub.Source) :
    (target.dialogue owner repo).run head source
        = (target.questions owner repo head source, target.resolve owner repo head source)
      ∧ (target.calls owner repo head source).length ≤ 1
      ∧ (∀ call ∈ target.calls owner repo head source,
          ∃ o r c, call = .numberOf o r c ∧ LooksUp target owner repo head o r c)
      ∧ (∀ o r c, LooksUp target owner repo head o r c →
          target.calls owner repo head source = [.numberOf o r c]
            ∧ (∀ n, source.numberOf o r c = .ok n →
                target.resolve owner repo head source = .ok ⟨o, r, n⟩)
            ∧ ∀ e, source.numberOf o r c = .error e →
                target.resolve owner repo head source = .error (.github e))
      ∧ (target.url.isSome ∨ target.number.isSome → target.calls owner repo head source = [])
      ∧ (∀ e, target.resolve owner repo head source = .error e →
          target.calls owner repo head source = []
            ∨ ∃ o r c error, target.calls owner repo head source = [.numberOf o r c]
              ∧ source.numberOf o r c = .error error ∧ e = .github error)
      ∧ (target.calls owner repo head source = [] ↔ ∀ other,
          target.resolve owner repo head other = target.resolve owner repo head source)
      ∧ (target.url = none → target.owner = some [] →
          target.resolve owner repo head source = .error (.github .missingOwner))
      ∧ (target.url = none → target.repo = some [] →
          ∃ e ∈ [GitHub.Error.missingOwner, .missingRepo],
            target.resolve owner repo head source = .error (.github e))
      ∧ (target.url = none → target.number = none → target.commit = some [] →
          ∃ e ∈ [GitHub.Error.missingOwner, .missingRepo, .missingCommit],
            target.resolve owner repo head source = .error (.github e))
      ∧ (.checkedOut ∈ target.questions owner repo head source ↔
          (∃ o r, Names target owner repo o r) ∧ target.number = none ∧ target.commit = none)
      ∧ (.checkedOut ∉ target.questions owner repo head source → ∀ other,
          target.resolve owner repo other source = target.resolve owner repo head source) := by
  refine ⟨run_dialogue target owner repo head source, ?atMostOne, ?onlyLookups, ?lookup, ?given,
    fun _ => calls_of_error, calls_eq_nil_iff, ?emptyOwner, ?emptyRepo, ?emptyCommit,
    checkedOut_mem_questions_iff, resolve_of_not_checkedOut⟩
  case atMostOne =>
    rcases calls_cases target owner repo head source with hnone | ⟨o, r, c, -, hone⟩
    · simp [hnone]
    · simp [hone]
  case onlyLookups =>
    intro call hcall
    rcases calls_cases target owner repo head source with hnone | ⟨o, r, c, hlooks, hone⟩
    · simp [hnone] at hcall
    · rw [hone, List.mem_singleton] at hcall
      exact ⟨o, r, c, hcall, hlooks⟩
  case lookup =>
    intro o r c hlooks
    refine ⟨calls_of_looksUp hlooks, fun n hanswer => ?_, fun e hanswer => ?_⟩ <;>
      simp only [resolve_of_looksUp hlooks, Query.run, GitHub.NumberQuery.run, hanswer]
  case given =>
    intro hgiven
    rcases calls_cases target owner repo head source with hnone | ⟨o, r, c, hlooks, -⟩
    · exact hnone
    · simp [hlooks.url, hlooks.number] at hgiven
  case emptyOwner =>
    intro hurl howner
    exact resolve_of_no_owner hurl (by rw [howner, part_empty])
  case emptyRepo =>
    intro hurl hrepo
    refine resolve_of_not_named hurl fun o r hnames => ?_
    have hpart : part target.repo repo = some r := hnames.repo
    rw [hrepo, part_empty] at hpart
    contradiction
  case emptyCommit =>
    intro hurl hnumber hcommit
    by_cases hnames : ∃ o r, Names target owner repo o r
    · obtain ⟨o, r, hnames⟩ := hnames
      refine ⟨_, by simp, resolve_of_no_commit hnames hnumber ?_⟩
      rw [hcommit, part_empty]
    · have hmissing : ∃ e ∈ [GitHub.Error.missingOwner, .missingRepo],
          target.resolve owner repo head source = .error (.github e) :=
        resolve_of_not_named hurl fun o r h => hnames ⟨o, r, h⟩
      obtain ⟨e, he, hresolve⟩ := hmissing
      exact ⟨e, List.mem_append_left [GitHub.Error.missingCommit] he, hresolve⟩

/-! ### A target with a part missing -/

/-- A source that knows the pull request of one commit. -/
def oneCommit : GitHub.Source where
  body _ := .ok []
  comments _ := .ok []
  numberOf _ _ commit :=
    if commit = "abc".toList then .ok 12 else .error (.pullRequestNotFound commit)

/-- A target that says the repository and nothing else. -/
def repoOnly : Target := { empty with repo := some "r".toList }

theorem looksUp_repoOnly :
    LooksUp repoOnly (some "o".toList) (some "other".toList) (some "abc".toList) "o".toList
      "r".toList "abc".toList where
  url := rfl
  number := rfl
  owner := rfl
  repo := rfl
  commit := rfl
  owner_ne_nil := by decide
  repo_ne_nil := by decide
  commit_ne_nil := by decide

/-- The owner is the configured one, the repository the one that is said, and the commit the one
that is checked out. With a commit that is said but empty, there is no such call. -/
theorem resolve_validates_first_repoOnly :
    repoOnly.calls (some "o".toList) (some "other".toList) (some "abc".toList) oneCommit
        = [.numberOf "o".toList "r".toList "abc".toList]
      ∧ repoOnly.resolve (some "o".toList) (some "other".toList) (some "abc".toList) oneCommit
        = .ok ⟨"o".toList, "r".toList, 12⟩
      ∧ ∃ e ∈ [GitHub.Error.missingOwner, .missingRepo, .missingCommit],
          { repoOnly with commit := some [] }.resolve (some "o".toList) none (some "abc".toList)
            oneCommit = .error (.github e) := by
  obtain ⟨-, -, -, hlookup, -⟩ := resolve_validates_first repoOnly (some "o".toList)
    (some "other".toList) (some "abc".toList) oneCommit
  obtain ⟨-, -, -, -, -, -, -, -, -, hempty, -⟩ := resolve_validates_first
    { repoOnly with commit := some [] } (some "o".toList) none (some "abc".toList) oneCommit
  obtain ⟨hcalls, hfound, -⟩ := hlookup _ _ _ looksUp_repoOnly
  exact ⟨hcalls, hfound 12 rfl, hempty rfl rfl rfl⟩

end Target
end PullPlan
