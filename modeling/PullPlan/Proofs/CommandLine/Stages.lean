import PullPlan.CommandLine.Run

/-!
# The stages of a question about a pull request

A subcommand that asks about a pull request loads its settings, takes the token, makes a client,
finds the pull request that is meant and fetches its body. `Fetches` says that all of these stages
succeed and what they lead to, `Fails` that one of them fails after those before it have succeeded.

`should-run` and `tests` are both a `question`: they share the stages and differ in what comes after
the body. So a stage that fails ends both of them with its failure (`question_of_fails`).
-/

namespace PullPlan
namespace CommandLine

/-- The settings are loaded, and the token makes a client for them. -/
structure Connects (config : Option Text) (s : Surroundings) (files : FileTree)
    (settings : Settings) (client : GitHub.Client) : Prop where
  loads : loadSettings config s files = ⟨[], [], files, .ok settings⟩
  makes : ∃ token, GitHub.Client.tokenFrom s.variableOf = .ok token
    ∧ Command.clientFor s settings token = .ok client

/-- A client finds the pull request that a target means. -/
def Finds (target : Target) (s : Surroundings) (files : FileTree) (settings : Settings)
    (client : GitHub.Client) (found : Except Target.Error PullRequest) : Prop :=
  target.resolve settings.owner settings.repo (Command.checkedOut s files) (client.source s.network)
    = found

/-- All stages succeed, and the body of the pull request is fetched. -/
structure Fetches (config : Option Text) (target : Target) (s : Surroundings) (files : FileTree)
    (settings : Settings) (client : GitHub.Client) (pr : PullRequest) (body : Text) : Prop where
  connects : Connects config s files settings client
  finds : Finds target s files settings client (.ok pr)
  fetches : client.body s.network pr = .ok body

/-- A stage fails after those before it have succeeded. -/
inductive Fails (config : Option Text) (target : Target) (s : Surroundings) (files : FileTree) :
    Failure → Prop where
  | settings {failure} (h : loadSettings config s files = ⟨[], [], files, .error failure⟩) :
    Fails config target s files failure
  | token {settings error} (hloads : loadSettings config s files = ⟨[], [], files, .ok settings⟩)
    (h : GitHub.Client.tokenFrom s.variableOf = .error error) :
    Fails config target s files (.github error)
  | client {settings token error}
    (hloads : loadSettings config s files = ⟨[], [], files, .ok settings⟩)
    (htoken : GitHub.Client.tokenFrom s.variableOf = .ok token)
    (h : Command.clientFor s settings token = .error error) :
    Fails config target s files (.github error)
  | target {settings client error} (hconnects : Connects config s files settings client)
    (h : Finds target s files settings client (.error error)) :
    Fails config target s files (.ofTarget error)
  | body {settings client pr error} (hconnects : Connects config s files settings client)
    (hfinds : Finds target s files settings client (.ok pr))
    (h : client.body s.network pr = .error error) :
    Fails config target s files (.github error)

variable {config : Option Text} {target : Target} {s : Surroundings} {files : FileTree}
  {settings : Settings} {client : GitHub.Client} {pr : PullRequest} {body : Text}
  {failure : Failure}

/-- There is no further outcome of the stages. -/
theorem fails_or_fetches (config : Option Text) (target : Target) (s : Surroundings)
    (files : FileTree) :
    (∃ failure, Fails config target s files failure)
      ∨ ∃ settings client pr body, Fetches config target s files settings client pr body := by
  have hload : loadSettings config s files
      = ⟨[], [], files, (loadSettings config s files).result⟩ := rfl
  cases hsettings : (loadSettings config s files).result with
  | error failure =>
    rw [hsettings] at hload
    exact .inl ⟨_, .settings hload⟩
  | ok settings =>
    rw [hsettings] at hload
    cases htoken : GitHub.Client.tokenFrom s.variableOf with
    | error error => exact .inl ⟨_, .token hload htoken⟩
    | ok token =>
      cases hclient : Command.clientFor s settings token with
      | error error => exact .inl ⟨_, .client hload htoken hclient⟩
      | ok client =>
        have hconnects : Connects config s files settings client := ⟨hload, token, htoken, hclient⟩
        cases htarget : target.resolve settings.owner settings.repo (Command.checkedOut s files)
            (client.source s.network) with
        | error error => exact .inl ⟨_, .target hconnects htarget⟩
        | ok pr =>
          cases hbody : client.body s.network pr with
          | error error => exact .inl ⟨_, .body hconnects htarget hbody⟩
          | ok body => exact .inr ⟨settings, client, pr, body, hconnects, htarget, hbody⟩

/-! ### Colours do not matter -/

theorem Connects.recolor (colored : Bool) (h : Connects config s files settings client) :
    Connects config { s with colored := colored } files settings client := ⟨h.loads, h.makes⟩

theorem Fetches.recolor (colored : Bool)
    (h : Fetches config target s files settings client pr body) :
    Fetches config target { s with colored := colored } files settings client pr body :=
  ⟨h.connects.recolor colored, h.finds, h.fetches⟩

theorem Fails.recolor (colored : Bool) (h : Fails config target s files failure) :
    Fails config target { s with colored := colored } files failure := by
  cases h with
  | settings h => exact .settings h
  | token hloads h => exact .token hloads h
  | client hloads htoken h => exact .client hloads htoken h
  | target hconnects h => exact .target (hconnects.recolor colored) h
  | body hconnects hfinds h => exact .body (hconnects.recolor colored) hfinds h

/-! ### Questions -/

/-- A question about the pull request that a target means: `next` is what is done once that is
found, and `status` makes the exit status of its answer. -/
def question {α : Type} (config : Option Text) (target : Target)
    (next : Settings → GitHub.Source → PullRequest → Command α) (status : α → Nat) :
    Command Nat := do
  let settings ← loadSettings config
  let answer ← (do
    let source ← Command.connect settings
    let pr ← Command.find target settings source
    next settings source pr : Command α)
  return status answer

variable {α : Type} {next : Settings → GitHub.Source → PullRequest → Command α} {status : α → Nat}

theorem connect_of_connects (h : Connects config s files settings client) :
    Command.connect settings s files = ⟨[], [], files, .ok (client.source s.network)⟩ := by
  obtain ⟨token, htoken, hclient⟩ := h.makes
  have hmade : (GitHub.Client.tokenFrom s.variableOf >>= Command.clientFor s settings)
      = .ok client := by
    rw [htoken]
    exact hclient
  simp [Command.connect, Command.look, hmade]

theorem connect_of_error {error : GitHub.Error}
    (h : (GitHub.Client.tokenFrom s.variableOf >>= Command.clientFor s settings)
      = .error error) :
    Command.connect settings s files = ⟨[], [], files, .error (.github error)⟩ := by
  simp [Command.connect, Command.look, h]

theorem find_of_finds (h : Finds target s files settings client (.ok pr)) :
    Command.find target settings (client.source s.network) s files = ⟨[], [], files, .ok pr⟩ := by
  rw [Finds] at h
  simp [Command.find, Command.look, h]

theorem find_of_error {error : Target.Error}
    (h : Finds target s files settings client (.error error)) :
    Command.find target settings (client.source s.network) s files
      = ⟨[], [], files, .error (.ofTarget error)⟩ := by
  rw [Finds] at h
  simp [Command.find, Command.look, h]

/-- Once the pull request is found, the question is what comes next. -/
theorem question_of_finds (hconnects : Connects config s files settings client)
    (hfinds : Finds target s files settings client (.ok pr)) :
    question config target next status s files
      = (do return status (← next settings (client.source s.network) pr) : Command Nat)
          s files := by
  rw [question, Command.bind_of_answers hconnects.loads]
  apply Command.bind_congr
  rw [Command.bind_of_answers (connect_of_connects hconnects),
    Command.bind_of_answers (find_of_finds hfinds)]

/-- A stage that fails ends the question with its failure, if what comes next fails without a body.
-/
theorem question_of_fails (h : Fails config target s files failure)
    (hnext : ∀ settings client pr error, GitHub.Client.body client s.network pr = .error error →
      next settings (client.source s.network) pr s files
        = ⟨[], [], files, .error (.github error)⟩) :
    question config target next status s files = ⟨[], [], files, .error failure⟩ := by
  cases h with
  | settings h => rw [question, Command.bind_of_fails h]
  | token hloads h =>
    rw [question, Command.bind_of_answers hloads]
    apply Command.bind_of_fails
    apply Command.bind_of_fails
    apply connect_of_error
    rw [h]
    rfl
  | client hloads htoken h =>
    rw [question, Command.bind_of_answers hloads]
    apply Command.bind_of_fails
    apply Command.bind_of_fails
    apply connect_of_error
    rw [htoken]
    exact h
  | target hconnects h =>
    rw [question, Command.bind_of_answers hconnects.loads]
    apply Command.bind_of_fails
    rw [Command.bind_of_answers (connect_of_connects hconnects)]
    apply Command.bind_of_fails
    exact find_of_error h
  | body hconnects hfinds h =>
    rw [question_of_finds hconnects hfinds]
    apply Command.bind_of_fails
    exact hnext _ _ _ _ h

end CommandLine
end PullPlan
