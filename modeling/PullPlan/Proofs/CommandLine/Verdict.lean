import PullPlan.Proofs.CommandLine.Stages
import PullPlan.Proofs.GitHub.Conversation
import PullPlan.Proofs.Plan.SuiteBox

/-!
# The verdict of `should-run`

The exit status of `should-run` is 2 if a stage fails, and otherwise the verdict of the last line of
the body with the box that asks for the suite: 0 if that box is checked, and 1 if it is not checked
or if there is none. `shouldRun_verdict` says this, and that `tests --json` prints the same verdict
for the same pull request, whatever tags it looks for and whatever the comments say. A run that is
refused the threads for its requests does not get as far as the stages, and it has no verdict.

The two go different ways to it: `should-run` reads the body alone, and `tests` reads the comments
as well, which may fail when the body did not. Their plans agree about the suite all the same.
-/

namespace PullPlan
namespace CommandLine

variable {config : Option Text} {target : Target} {s : Surroundings} {files : FileTree}
  {settings : Settings} {client : GitHub.Client} {pr : PullRequest} {body : Text}
  {failure : Failure}

/-! ### What follows the stages -/

/-- What a source says about one thing is answered, or is the failure. -/
theorem ofSource_apply {α : Type} (said : Except GitHub.Error α) (s : Surroundings)
    (files : FileTree) :
    Command.ofSource said s files = ⟨[], [], files, said.mapError .github⟩ := by
  cases said <;> rfl

theorem text_of_body_error {source : GitHub.Source} {error : GitHub.Error}
    (h : source.body pr = .error error) : source.text pr = .error error := by
  rw [GitHub.Source.text, h]
  rfl

theorem text_of_body_ok {source : GitHub.Source} (h : source.body pr = .ok body) :
    source.text pr = (source.comments pr).map fun comments => (body, comments) := by
  rw [GitHub.Source.text, h]
  rfl

theorem shouldRun_of_fails (h : Fails config target s files failure) :
    (Action.shouldRun target).run config s files = ⟨[], [], files, .error failure⟩ := by
  refine question_of_fails h ?_
  intro settings client pr error hbody
  have hsource : (client.source s.network).body pr = .error error := hbody
  apply Command.bind_of_fails
  rw [ofSource_apply, hsource]
  rfl

/-- What `should-run` answers follows from the body alone. -/
theorem shouldRun_of_fetches (h : Fetches config target s files settings client pr body) :
    ((Action.shouldRun target).run config s files).result
      = .ok (if (Plan.ofPullRequest body [] []).shouldRunSuite = some true then 0
          else skipStatus) := by
  have hsource : (client.source s.network).body pr = .ok body := h.fetches
  have hbody : Command.ofSource ((client.source s.network).body pr) s files
      = ⟨[], [], files, .ok body⟩ := by
    rw [ofSource_apply, hsource]
    rfl
  have hstages : (Action.shouldRun target).run config s files = _ :=
    question_of_finds h.connects h.finds
  rw [hstages, Command.bind_congr (Command.bind_of_answers hbody)]
  dsimp only
  split
  · rfl
  · rfl

/-- A question whose answer is the printed plan. -/
def printed (tags : Option Text) (settings : Settings) (source : GitHub.Source) (pr : PullRequest) :
    Command Unit := do
  let (body, comments) ← Command.ofSource (source.text pr)
  Command.printPlan true (Plan.ofPullRequest body (settings.tagsOr tags) comments)

theorem tests_eq_question (target : Target) (tags config : Option Text) :
    (Action.tests target tags true).run config
      = question config target (printed tags) fun _ => 0 := rfl

theorem printed_of_text_ok {tags : Option Text} {source : GitHub.Source} {comments : List Text}
    (h : source.text pr = .ok (body, comments)) :
    printed tags settings source pr s files
      = ⟨(Plan.ofPullRequest body (settings.tagsOr tags) comments).printed true s.colored, [],
          files, .ok ()⟩ := by
  have hfetch : Command.ofSource (source.text pr) s files
      = ⟨[], [], files, .ok (body, comments)⟩ := by
    rw [ofSource_apply, h]
    rfl
  rw [printed, Command.bind_of_answers hfetch]
  rfl

theorem printed_of_text_error {tags : Option Text} {source : GitHub.Source} {error : GitHub.Error}
    (h : source.text pr = .error error) :
    printed tags settings source pr s files = ⟨[], [], files, .error (.github error)⟩ := by
  apply Command.bind_of_fails
  rw [ofSource_apply, h]
  rfl

theorem tests_of_fails {tags : Option Text} (h : Fails config target s files failure) :
    (Action.tests target tags true).run config s files = ⟨[], [], files, .error failure⟩ := by
  rw [tests_eq_question]
  apply question_of_fails h
  intro settings client pr error hbody
  exact printed_of_text_error (text_of_body_error hbody)

/-- With the body, `tests` prints the plan of a text whose comments it can fetch as well. -/
theorem tests_of_fetches {tags : Option Text} {status : Nat}
    (h : Fetches config target s files settings client pr body)
    (hresult : ((Action.tests target tags true).run config s files).result = .ok status) :
    ∃ comments, ((Action.tests target tags true).run config s files).output
      = (Plan.ofPullRequest body (settings.tagsOr tags) comments).toJson.pretty ++ ['\n'] := by
  have htext : (client.source s.network).text pr = _ := text_of_body_ok h.fetches
  rw [tests_eq_question, question_of_finds h.connects h.finds] at hresult ⊢
  cases hcomments : (client.source s.network).comments pr with
  | ok comments =>
    rw [hcomments] at htext
    have hprinted : printed tags settings (client.source s.network) pr s files = _ :=
      printed_of_text_ok htext
    refine ⟨comments, ?_⟩
    rw [Command.bind_of_ok (congrArg Outcome.result hprinted), hprinted]
    exact List.append_nil _
  | error error =>
    -- Without comments nothing is printed, and that is no success.
    rw [hcomments] at htext
    rw [Command.bind_of_fails (printed_of_text_error htext)] at hresult
    contradiction

/-! ### Reports -/

variable {action : Action}

theorem run_of_refused {error : SystemError} (h : s.runtimeRefusal = some error) :
    Invocation.run ⟨config, action⟩ s files = refusedReport error s.colored files := by
  rw [Invocation.run, h]

theorem run_of_ok (hruntime : s.runtimeRefusal = none) {status : Nat}
    (h : (action.run config s files).result = .ok status) :
    (Invocation.run ⟨config, action⟩ s files).exit = status
      ∧ (Invocation.run ⟨config, action⟩ s files).output = (action.run config s files).output
      ∧ (Invocation.run ⟨config, action⟩ s files).failure = none := by
  rw [Invocation.run, hruntime]
  dsimp only
  rw [h]
  exact ⟨rfl, rfl, rfl⟩

theorem run_of_error (hruntime : s.runtimeRefusal = none)
    (h : (action.run config s files).result = .error failure) :
    (Invocation.run ⟨config, action⟩ s files).exit = action.failureStatus
      ∧ (Invocation.run ⟨config, action⟩ s files).failure = some failure := by
  rw [Invocation.run, hruntime]
  dsimp only
  rw [h]
  exact ⟨rfl, rfl⟩

/-! ### The verdict -/

/-- All stages succeed and lead to a body. -/
def Fetched (config : Option Text) (target : Target) (s : Surroundings) (files : FileTree)
    (body : Text) : Prop :=
  ∃ settings client pr, Fetches config target s files settings client pr body

theorem fails_or_fetched (config : Option Text) (target : Target) (s : Surroundings)
    (files : FileTree) :
    (∃ failure, Fails config target s files failure)
      ∨ ∃ body, Fetched config target s files body := by
  obtain hfails | ⟨settings, client, pr, body, hfetches⟩ := fails_or_fetches config target s files
  · exact .inl hfails
  · exact .inr ⟨body, settings, client, pr, hfetches⟩

variable {arguments : List Text} {tags : Option Text}

section
variable (h : Invocation.ofArguments s.variableOf arguments = .ok ⟨config, .shouldRun target⟩)
  (hruntime : s.runtimeRefusal = none)
include h hruntime

theorem shouldRun_report_of_fails (hfails : Fails config target s files failure) :
    (run arguments s files).exit = 2 ∧ (run arguments s files).failure = some failure := by
  rw [run, h]
  exact run_of_error hruntime (congrArg Outcome.result (shouldRun_of_fails (hfails.recolor _)))

theorem shouldRun_report_of_fetched (hfetched : Fetched config target s files body) :
    (run arguments s files).exit
        = (if (Plan.ofPullRequest body [] []).shouldRunSuite = some true then 0 else 1)
      ∧ (run arguments s files).failure = none := by
  obtain ⟨settings, client, pr, hfetches⟩ := hfetched
  rw [run, h]
  have hruntime' : ({ s with colored := isColored s.variableOf } : Surroundings).runtimeRefusal
      = none := hruntime
  obtain ⟨hexit, -, hfailure⟩ := run_of_ok hruntime' (shouldRun_of_fetches (hfetches.recolor _))
  exact ⟨hexit, hfailure⟩

theorem exit_eq_two_iff :
    (run arguments s files).exit = 2 ↔ ∃ failure, Fails config target s files failure := by
  constructor
  · intro hexit
    rcases fails_or_fetched config target s files with hfails | ⟨body, hfetched⟩
    · exact hfails
    · rw [(shouldRun_report_of_fetched h hruntime hfetched).1] at hexit
      split at hexit <;> contradiction
  · rintro ⟨failure, hfails⟩
    exact (shouldRun_report_of_fails h hruntime hfails).1

/-- The failure that is reported is that of the stage. -/
theorem failure_eq_some_iff :
    (run arguments s files).failure = some failure ↔ Fails config target s files failure := by
  constructor
  · intro hfailure
    rcases fails_or_fetched config target s files with ⟨failure', hfails⟩ | ⟨body, hfetched⟩
    · rw [(shouldRun_report_of_fails h hruntime hfails).2, Option.some.injEq] at hfailure
      exact hfailure ▸ hfails
    · rw [(shouldRun_report_of_fetched h hruntime hfetched).2] at hfailure
      contradiction
  · intro hfails
    exact (shouldRun_report_of_fails h hruntime hfails).2

/-- A status other than 2 is about the body. -/
theorem exit_eq_iff {status : Nat} {holds : Text → Prop} (hne : status ≠ 2)
    (hstatus : ∀ body, (if (Plan.ofPullRequest body [] []).shouldRunSuite = some true then 0 else 1)
      = status ↔ holds body) :
    (run arguments s files).exit = status ↔
      ∃ body, Fetched config target s files body ∧ holds body := by
  constructor
  · intro hexit
    rcases fails_or_fetched config target s files with ⟨failure, hfails⟩ | ⟨body, hfetched⟩
    · rw [(shouldRun_report_of_fails h hruntime hfails).1] at hexit
      exact absurd hexit.symm hne
    · rw [(shouldRun_report_of_fetched h hruntime hfetched).1, hstatus] at hexit
      exact ⟨body, hfetched, hexit⟩
  · rintro ⟨body, hfetched, hholds⟩
    rw [(shouldRun_report_of_fetched h hruntime hfetched).1]
    exact (hstatus body).2 hholds

end

/-- The status of a plan is 0 if its last box is checked. -/
theorem status_eq_zero_iff (body : Text) :
    (if (Plan.ofPullRequest body [] []).shouldRunSuite = some true then 0 else 1) = 0 ↔
      LastBox Directive.IsChecked body := by
  rw [← Plan.shouldRunSuite_eq_true_iff body [] []]
  simp

/-- It is 1 if that is not checked, or if there is none. -/
theorem status_eq_one_iff (body : Text) :
    (if (Plan.ofPullRequest body [] []).shouldRunSuite = some true then 0 else 1) = 1 ↔
      LastBox Directive.IsUnchecked body ∨ ∀ line ∈ Text.lines body, ¬ Directive.HasBox line := by
  rw [← Plan.shouldRunSuite_eq_false_iff body [] [], ← Plan.shouldRunSuite_eq_none_iff body [] []]
  cases (Plan.ofPullRequest body [] []).shouldRunSuite with
  | none => simp
  | some checked => cases checked <;> simp

/-- Where `tests --json` succeeds, the threads are given, all stages succeed, and a plan is printed
of a text with the body that they fetch. -/
theorem tests_of_exit_zero
    (h : Invocation.ofArguments s.variableOf arguments = .ok ⟨config, .tests target tags true⟩)
    (hexit : (run arguments s files).exit = 0) :
    s.runtimeRefusal = none ∧
    ∃ settings client pr body comments, Fetches config target s files settings client pr body
      ∧ (run arguments s files).output
          = (Plan.ofPullRequest body (settings.tagsOr tags) comments).toJson.pretty ++ ['\n'] := by
  rw [run, h] at hexit ⊢
  dsimp only at hexit ⊢
  -- The subcommand is run with other colours, which no stage looks at.
  generalize hcolored : { s with colored := isColored s.variableOf } = s' at hexit ⊢
  have hsame : s.runtimeRefusal = s'.runtimeRefusal := by rw [← hcolored]
  cases hruntime : s'.runtimeRefusal with
  | some error =>
    rw [run_of_refused hruntime] at hexit
    contradiction
  | none =>
    refine ⟨hsame.trans hruntime, ?_⟩
    cases hresult : ((Action.tests target tags true).run config s' files).result with
    | error failure =>
      rw [(run_of_error hruntime hresult).1] at hexit
      contradiction
    | ok status =>
      obtain ⟨failure, hfails⟩ | ⟨settings, client, pr, body, hfetches⟩ :=
        fails_or_fetches config target s files
      · have hfails' : Fails config target s' files failure := hcolored ▸ hfails.recolor _
        rw [tests_of_fails hfails'] at hresult
        contradiction
      · have hfetches' : Fetches config target s' files settings client pr body :=
          hcolored ▸ hfetches.recolor _
        obtain ⟨comments, houtput⟩ := tests_of_fetches hfetches' hresult
        refine ⟨settings, client, pr, body, comments, hfetches, ?_⟩
        rw [(run_of_ok hruntime hresult).2.1, houtput]

/-- The verdict that `tests --json` prints is that of the last box of the body. -/
theorem tests_verdict
    (h : Invocation.ofArguments s.variableOf arguments = .ok ⟨config, .tests target tags true⟩)
    (hexit : (run arguments s files).exit = 0) :
    ∃ body tree members verdict, Fetched config target s files body
      ∧ Json.Tree.ofText? (run arguments s files).output = some tree
      ∧ tree.members? = some members ∧ Dict.valuesAt "shouldRunSuite".toList members = [verdict]
      ∧ (verdict = .bool true ↔ LastBox Directive.IsChecked body) := by
  obtain ⟨-, settings, client, pr, body, comments, hfetches, houtput⟩ := tests_of_exit_zero h hexit
  refine ⟨body, (Plan.ofPullRequest body (settings.tagsOr tags) comments).toJson.tree, _, _,
    ⟨settings, client, pr, hfetches⟩, ?_, Json.members?_tree _, rfl, ?_⟩
  · rw [houtput, Json.treeOfText?_pretty_line]
  · rw [← Plan.shouldRunSuite_eq_true_iff body (settings.tagsOr tags) comments]
    cases (Plan.ofPullRequest body (settings.tagsOr tags) comments).shouldRunSuite with
    | none => simp [Json.boolOrNull, Json.tree]
    | some checked => simp [Json.boolOrNull, Json.tree]

/-- **The verdict of `should-run`.** There are three exit statuses. The status is 2 exactly if a
stage fails, and the failure of that stage is the one that is reported. It is 0 exactly if all
stages succeed and the last line of the body with the box is checked, and 1 exactly if they succeed
and that line is unchecked or no line has the box. If `tests --json` succeeds for the same target,
then it is not 2, and it is 0 exactly if the printed verdict is `true`.

This is so once the system gives the threads that requests are run on. If it refuses them, then no
stage is reached and there is no verdict. The failure is reported with the status 1, as it is for
all commands. -/
theorem shouldRun_verdict
    (h : Invocation.ofArguments s.variableOf arguments = .ok ⟨config, .shouldRun target⟩) :
    ((run arguments s files).exit = 0 ∨ (run arguments s files).exit = 1
        ∨ (run arguments s files).exit = 2)
      ∧ (s.runtimeRefusal = none →
        ((run arguments s files).exit = 2 ↔ ∃ failure, Fails config target s files failure)
          ∧ (∀ failure, (run arguments s files).failure = some failure ↔
              Fails config target s files failure)
          ∧ ((run arguments s files).exit = 0 ↔
              ∃ body, Fetched config target s files body ∧ LastBox Directive.IsChecked body)
          ∧ ((run arguments s files).exit = 1 ↔
              ∃ body, Fetched config target s files body ∧ (LastBox Directive.IsUnchecked body
                ∨ ∀ line ∈ Text.lines body, ¬ Directive.HasBox line)))
      ∧ (∀ error, s.runtimeRefusal = some error →
        run arguments s files = refusedReport error (isColored s.variableOf) files)
      ∧ ∀ arguments' tags,
          Invocation.ofArguments s.variableOf arguments' = .ok ⟨config, .tests target tags true⟩ →
          (run arguments' s files).exit = 0 →
          (run arguments s files).exit ≠ 2
            ∧ ∃ tree members verdict, Json.Tree.ofText? (run arguments' s files).output = some tree
              ∧ tree.members? = some members
              ∧ Dict.valuesAt "shouldRunSuite".toList members = [verdict]
              ∧ ((run arguments s files).exit = 0 ↔ verdict = .bool true) := by
  have hrefused : ∀ error, s.runtimeRefusal = some error →
      run arguments s files = refusedReport error (isColored s.variableOf) files := by
    intro error hruntime
    rw [run, h]
    exact run_of_refused hruntime
  refine ⟨?_, fun hruntime => ⟨exit_eq_two_iff h hruntime, fun failure =>
    failure_eq_some_iff h hruntime, exit_eq_iff h hruntime (by decide) status_eq_zero_iff,
    exit_eq_iff h hruntime (by decide) status_eq_one_iff⟩, hrefused, ?_⟩
  · cases hruntime : s.runtimeRefusal with
    | some error =>
      rw [hrefused error hruntime]
      exact .inr (.inl rfl)
    | none =>
      rcases fails_or_fetched config target s files with ⟨failure, hfails⟩ | ⟨body, hfetched⟩
      · exact .inr (.inr (shouldRun_report_of_fails h hruntime hfails).1)
      · rw [(shouldRun_report_of_fetched h hruntime hfetched).1]
        split
        · exact .inl rfl
        · exact .inr (.inl rfl)
  · intro arguments' tags h' hexit
    have hruntime : s.runtimeRefusal = none := (tests_of_exit_zero h' hexit).1
    obtain ⟨body, tree, members, verdict, hfetched, htree, hmembers, hverdict, hiff⟩ :=
      tests_verdict h' hexit
    have hstatus := (shouldRun_report_of_fetched h hruntime hfetched).1
    refine ⟨?_, tree, members, verdict, htree, hmembers, hverdict, ?_⟩
    · rw [hstatus]
      split
      · decide
      · decide
    · rw [hstatus, status_eq_zero_iff, hiff]

/-! ### A pull request with two boxes -/

/-- Surroundings with a token and a network. -/
def online (network : GitHub.Network) : Surroundings :=
  { directory := []
    variableOf := fun name => if name = "GITHUB_TOKEN".toList then some "token".toList else none
    objects := fun _ _ => none
    input := []
    network := network
    colored := false }

/-- A server with a pull request whose second box is not checked. -/
def boxServer : GitHub.Network :=
  GitHub.server GitHub.Client.publicClient.apiRoot GitHub.Client.publicClient.token
    GitHub.Client.firstPull "- [x] run E2E tests\n- [ ] run Cypress tests".toList ["ok".toList]

/-- The address of that pull request. -/
def boxUrl : Text := "https://github.com/o/r/pull/1".toList

theorem shouldRun_verdict_unchecked :
    Invocation.ofArguments (online boxServer).variableOf
        ["should-run".toList, "--url".toList, boxUrl]
        = .ok ⟨none, .shouldRun ⟨none, none, none, none, some boxUrl⟩⟩
      ∧ Invocation.ofArguments (online boxServer).variableOf
          ["tests".toList, "--json".toList, "--tags=@quick".toList, "--url".toList, boxUrl]
        = .ok ⟨none, .tests ⟨none, none, none, none, some boxUrl⟩ (some "@quick".toList) true⟩
      ∧ (run ["should-run".toList, "--url".toList, boxUrl] (online boxServer) .empty).exit = 1
      ∧ ∃ body, Fetched none ⟨none, none, none, none, some boxUrl⟩ (online boxServer) .empty body
          ∧ (LastBox Directive.IsUnchecked body
            ∨ ∀ line ∈ Text.lines body, ¬ Directive.HasBox line)
          ∧ ∃ tree members verdict,
            Json.Tree.ofText? (run
                ["tests".toList, "--json".toList, "--tags=@quick".toList, "--url".toList, boxUrl]
                (online boxServer) .empty).output = some tree
              ∧ tree.members? = some members
              ∧ Dict.valuesAt "shouldRunSuite".toList members = [verdict]
              ∧ verdict ≠ .bool true := by
  have hshouldRun : Invocation.ofArguments (online boxServer).variableOf
      ["should-run".toList, "--url".toList, boxUrl]
      = .ok ⟨none, .shouldRun ⟨none, none, none, none, some boxUrl⟩⟩ := by decide +kernel
  have htests : Invocation.ofArguments (online boxServer).variableOf
      ["tests".toList, "--json".toList, "--tags=@quick".toList, "--url".toList, boxUrl]
      = .ok ⟨none, .tests ⟨none, none, none, none, some boxUrl⟩ (some "@quick".toList) true⟩ := by
    decide +kernel
  have hexit : (run ["should-run".toList, "--url".toList, boxUrl] (online boxServer) .empty).exit
      = 1 := by decide +kernel
  have hsuccess : (run
      ["tests".toList, "--json".toList, "--tags=@quick".toList, "--url".toList, boxUrl]
      (online boxServer) .empty).exit = 0 := by decide +kernel
  obtain ⟨-, hverdicts, -, hagrees⟩ := shouldRun_verdict hshouldRun
  obtain ⟨body, hfetched, hbox⟩ := (hverdicts rfl).2.2.2.1 hexit
  obtain ⟨-, tree, members, verdict, htree, hmembers, hverdict, hiff⟩ :=
    hagrees _ _ htests hsuccess
  refine ⟨hshouldRun, htests, hexit, body, hfetched, hbox, tree, members, verdict, htree, hmembers,
    hverdict, ?_⟩
  intro htrue
  rw [hiff.2 htrue] at hexit
  contradiction

end CommandLine
end PullPlan
