import PullPlan.Command.Apply
import PullPlan.Proofs.FileTree

/-!
# Applying a plan is all or nothing

`applyToFile` can end in four ways: without a configuration, with a printed one, with a report after
which the file could not be written, and with a written file (`ends_applyToFile`). In the first
three no file is touched, and in the last one just one is, as a whole.

`applyToFile_allOrNothing` says this of the files and of the output. Which configuration is loaded
is said by `RunnerConfig.IsLoaded` alone: where nothing is seen under the name it is the empty one.
That is meant for a missing file. But a file that is not seen need not be missing, and out of view a
file that is no configuration passes for an empty one (`applyToFile_unseen`). In view it has none,
and then the command fails.
-/

namespace PullPlan

namespace FileTree

variable {files saved : FileTree} {directory : Path} {name content : Text}

/-- A file under a name has been replaced as a whole, and nothing else has been touched. -/
def Replaces (files : FileTree) (directory : Path) (name content : Text) (saved : FileTree) :
    Prop :=
  ∃ path, files.resolve directory name = .ok path
    ∧ saved.refusals = files.refusals
    ∧ ∀ p, saved.get? p
        = if p = path then some (.file (Utf8.encode content)) else files.get? p

theorem replaces_of_write (h : files.write directory name content = .ok saved) :
    Replaces files directory name content saved := by
  obtain ⟨path, hresolve, -, hrefusals, hget⟩ := exists_of_write h
  exact ⟨path, hresolve, hrefusals, hget⟩

end FileTree

/-! ### Loading a configuration -/

namespace RunnerConfig

variable {files saved : FileTree} {directory : Path} {name : Text} {config : RunnerConfig}

/-- An entry is a file whose text is JSON for a configuration. -/
def Holds (entry : FileEntry) (config : RunnerConfig) : Prop :=
  ∃ bytes content tree, entry = .file bytes ∧ Utf8.decode? bytes = some content
    ∧ Json.Tree.ofText? content = some tree ∧ ofTree? tree = some config

/-- The configuration under a name: the empty one where nothing is seen, and otherwise the one that
is seen and may be read. -/
inductive IsLoaded (files : FileTree) (directory : Path) (name : Text) : RunnerConfig → Prop where
  | unseen (h : ∀ entry, ¬ files.Sees directory name entry) : IsLoaded files directory name empty
  | file {entry config} (hsees : files.Sees directory name entry)
    (hread : files.MayRead directory name) (hholds : Holds entry config) :
    IsLoaded files directory name config

theorem load_eq_ok_iff :
    load files directory name = .ok config ↔
      ∃ content, files.readText directory name = .ok content ∧ ofText? content = some config := by
  unfold load
  cases files.readText directory name with
  | error e => simp
  | ok content =>
    dsimp only
    cases hconfig : ofText? content <;> simp [hconfig]

theorem load_eq_json_iff :
    load files directory name = .error .json ↔
      ∃ content, files.readText directory name = .ok content ∧ ofText? content = none := by
  unfold load
  cases files.readText directory name with
  | error e => simp
  | ok content =>
    dsimp only
    cases hconfig : ofText? content <;> simp [hconfig]

theorem readText_eq_ok_iff {content : Text} :
    files.readText directory name = .ok content ↔
      ∃ bytes, files.read directory name = .ok bytes ∧ Utf8.decode? bytes = some content := by
  unfold FileTree.readText
  cases files.read directory name with
  | error e => simp [Bind.bind, Except.bind]
  | ok bytes =>
    simp only [Bind.bind, Except.bind, FileTree.asText, Except.ok.injEq, exists_eq_left']
    cases Utf8.decode? bytes <;> simp

/-- A file that can be read is seen. -/
theorem loadOrEmpty_of_read {bytes : Bytes} (h : files.read directory name = .ok bytes) :
    loadOrEmpty files directory name = load files directory name := by
  have hhas : files.has directory name = true :=
    FileTree.has_eq_true_iff.2 ⟨_, (FileTree.read_eq_ok_iff_sees.1 h).1⟩
  rw [loadOrEmpty, if_pos hhas]

theorem exists_read_of_load (h : load files directory name = .ok config) :
    ∃ bytes, files.read directory name = .ok bytes := by
  obtain ⟨content, hcontent, -⟩ := load_eq_ok_iff.1 h
  obtain ⟨bytes, hbytes, -⟩ := readText_eq_ok_iff.1 hcontent
  exact ⟨bytes, hbytes⟩

theorem loadOrEmpty_eq_ok_iff :
    loadOrEmpty files directory name = .ok config ↔ IsLoaded files directory name config := by
  constructor
  · intro h
    rw [loadOrEmpty] at h
    split at h
    · obtain ⟨content, hcontent, hconfig⟩ := load_eq_ok_iff.1 h
      obtain ⟨bytes, hbytes, htext⟩ := readText_eq_ok_iff.1 hcontent
      obtain ⟨tree, hjson, hconfig⟩ := Option.bind_eq_some_iff.1 hconfig
      obtain ⟨hsees, hread⟩ := FileTree.read_eq_ok_iff_sees.1 hbytes
      exact .file hsees hread ⟨bytes, content, tree, rfl, htext, hjson, hconfig⟩
    · next hhas =>
      obtain rfl : empty = config := Except.ok.inj h
      exact .unseen fun entry hentry => hhas (FileTree.has_eq_true_iff.2 ⟨entry, hentry⟩)
  · intro h
    cases h with
    | unseen h =>
      have hhas : ¬ files.has directory name = true := by
        rw [FileTree.has_eq_true_iff]
        exact fun ⟨entry, hentry⟩ => h entry hentry
      rw [loadOrEmpty, if_neg hhas]
    | file hsees hread hholds =>
      obtain ⟨bytes, content, tree, rfl, htext, hjson, hconfig⟩ := hholds
      have hbytes := FileTree.read_eq_ok_iff_sees.2 ⟨hsees, hread⟩
      rw [loadOrEmpty_of_read hbytes, load_eq_ok_iff]
      exact ⟨_, readText_eq_ok_iff.2 ⟨_, hbytes, htext⟩,
        Option.bind_eq_some_iff.2 ⟨_, hjson, hconfig⟩⟩

/-- From an entry in view nothing but its own configuration is loaded. -/
theorem not_isLoaded_of_stands {entry : FileEntry} (hstands : files.Stands directory name entry)
    (hview : files.InView directory name)
    (hnot : ∀ config, ¬ (Holds entry config ∧ files.MayRead directory name)) :
    ¬ IsLoaded files directory name config := by
  intro hloaded
  cases hloaded with
  | unseen hunseen => exact hunseen entry (FileTree.sees_iff.2 ⟨hstands, hview⟩)
  | file hsees hread hholds =>
    obtain rfl := hstands.eq (FileTree.sees_iff.1 hsees).1
    exact hnot config ⟨hholds, hread⟩

/-- Out of view everything passes for the empty configuration. -/
theorem isLoaded_iff_of_not_inView (h : ¬ files.InView directory name) :
    IsLoaded files directory name config ↔ config = empty := by
  have hunseen : ∀ entry, ¬ files.Sees directory name entry :=
    fun _ hsees => h (FileTree.sees_iff.1 hsees).2
  constructor
  · intro hloaded
    cases hloaded with
    | unseen => rfl
    | file hsees hread hholds => exact absurd hsees (hunseen _)
  · rintro rfl
    exact .unseen hunseen

theorem save_eq_ok_iff :
    config.save files directory name = .ok saved ↔
      files.write directory name config.text = .ok saved := by
  unfold save
  cases files.write directory name config.text <;> simp

end RunnerConfig

/-! ### The four ways to end -/

namespace Command

/-- The text of a report. -/
def reportText (report : MergeReport) (colored : Bool) : Text :=
  (report.lines colored).flatMap fun line => line ++ ['\n']

/-- The line that closes a run that wrote a file. -/
def closingLine (name : Text) (colored : Bool) : Text :=
  Style.paint colored .green ("✅ Wrote ".toList ++ name) ++ ['\n']

variable {plan : Plan} {options : MergeOptions} {s : Surroundings} {files saved : FileTree}
  {input name : Text} {merged : Option Text} {config : RunnerConfig}
  {problem : RunnerConfig.FileProblem}

theorem loadConfig_apply (input : Text) (s : Surroundings) (files : FileTree) :
    loadConfig input s files = ⟨[], [], files,
      (RunnerConfig.loadOrEmpty files s.directory input).mapError .runnerConfig⟩ := by
  unfold loadConfig look
  dsimp only
  cases RunnerConfig.loadOrEmpty files s.directory input <;> rfl

theorem applyToFile_of_load_error
    (hload : RunnerConfig.loadOrEmpty files s.directory input = .error problem) :
    applyToFile plan input merged options s files
      = ⟨[], [], files, .error (.runnerConfig problem)⟩ := by
  apply bind_of_fails
  rw [loadConfig_apply, hload]
  rfl

theorem loadConfig_bind_of_ok {next : RunnerConfig → Command Unit}
    (hload : RunnerConfig.loadOrEmpty files s.directory input = .ok config) :
    (loadConfig input >>= next) s files = next config s files := by
  apply bind_of_answers
  rw [loadConfig_apply, hload]
  rfl

theorem applyToFile_of_printed
    (hload : RunnerConfig.loadOrEmpty files s.directory input = .ok config) :
    applyToFile plan input none options s files
      = ⟨(config.merge plan options).text ++ ['\n'], [], files, .ok ()⟩ := by
  rw [applyToFile, loadConfig_bind_of_ok hload]
  rfl

/-- The report changes no file, so the merged configuration is saved to the files as they were. -/
theorem applyToFile_of_report
    (hload : RunnerConfig.loadOrEmpty files s.directory input = .ok config) {outcome : Outcome Unit}
    (houtcome : (saveConfig (config.merge plan options) name
      >>= fun _ => sayIn .green ("✅ Wrote ".toList ++ name)) s files = outcome) :
    applyToFile plan input (some name) options s files
      = ⟨reportText (config.mergeReport plan options) s.colored ++ outcome.output, outcome.notes,
          outcome.files, outcome.result⟩ := by
  have hreport : printReport (config.mergeReport plan options) s files
      = ⟨reportText (config.mergeReport plan options) s.colored, [], files, .ok ()⟩ := rfl
  have happlied : applyToFile plan input (some name) options s files
      = (printReport (config.mergeReport plan options) >>= fun _ =>
          saveConfig (config.merge plan options) name
            >>= fun _ => sayIn .green ("✅ Wrote ".toList ++ name)) s files := by
    rw [applyToFile, loadConfig_bind_of_ok hload]
    rfl
  rw [happlied, bind_of_ok (congrArg Outcome.result hreport), hreport]
  dsimp only
  rw [houtcome]
  rfl

theorem applyToFile_of_save_error
    (hload : RunnerConfig.loadOrEmpty files s.directory input = .ok config)
    (hsave : (config.merge plan options).save files s.directory name = .error problem) :
    applyToFile plan input (some name) options s files
      = ⟨reportText (config.mergeReport plan options) s.colored, [], files,
          .error (.runnerConfig problem)⟩ := by
  have hsaved : saveConfig (config.merge plan options) name s files
      = ⟨[], [], files, .error (.runnerConfig problem)⟩ := by
    unfold saveConfig change
    dsimp only
    rw [hsave]
  rw [applyToFile_of_report hload (bind_of_fails hsaved)]
  simp

theorem applyToFile_of_save_ok
    (hload : RunnerConfig.loadOrEmpty files s.directory input = .ok config)
    (hsave : (config.merge plan options).save files s.directory name = .ok saved) :
    applyToFile plan input (some name) options s files
      = ⟨reportText (config.mergeReport plan options) s.colored ++ closingLine name s.colored, [],
          saved, .ok ()⟩ := by
  have hsaved : saveConfig (config.merge plan options) name s files = ⟨[], [], saved, .ok ()⟩ := by
    unfold saveConfig change
    dsimp only
    rw [hsave]
  rw [applyToFile_of_report hload (bind_of_ok (congrArg Outcome.result hsaved)), hsaved]
  rfl

/-- How a run ends. -/
inductive Ends (plan : Plan) (input : Text) (merged : Option Text) (options : MergeOptions)
    (s : Surroundings) (files : FileTree) : Outcome Unit → Prop where
  | unloaded {problem : RunnerConfig.FileProblem}
    (h : ∀ config, ¬ RunnerConfig.IsLoaded files s.directory input config) :
    Ends plan input merged options s files ⟨[], [], files, .error (.runnerConfig problem)⟩
  | printed {config : RunnerConfig} (h : RunnerConfig.IsLoaded files s.directory input config)
    (hmerged : merged = none) :
    Ends plan input merged options s files
      ⟨(config.merge plan options).toJson.pretty ++ ['\n'], [], files, .ok ()⟩
  | unsaved {config : RunnerConfig} {name : Text} {problem : RunnerConfig.FileProblem}
    (h : RunnerConfig.IsLoaded files s.directory input config)
    (hmerged : merged = some name) (hwrite : ¬ files.CanWrite s.directory name) :
    Ends plan input merged options s files
      ⟨reportText (config.mergeReport plan options) s.colored, [], files,
        .error (.runnerConfig problem)⟩
  | saved {config : RunnerConfig} {name : Text} {saved : FileTree}
    (h : RunnerConfig.IsLoaded files s.directory input config)
    (hmerged : merged = some name) (hwrite : files.CanWrite s.directory name)
    (hsaved : files.Replaces s.directory name (config.merge plan options).toJson.pretty saved)
    (hread : files.MayRead s.directory name →
      saved.readText s.directory name = .ok (config.merge plan options).toJson.pretty) :
    Ends plan input merged options s files
      ⟨reportText (config.mergeReport plan options) s.colored ++ closingLine name s.colored, [],
        saved, .ok ()⟩

theorem ends_applyToFile (plan : Plan) (input : Text) (merged : Option Text)
    (options : MergeOptions) (s : Surroundings) (files : FileTree) :
    Ends plan input merged options s files (applyToFile plan input merged options s files) := by
  cases hload : RunnerConfig.loadOrEmpty files s.directory input with
  | error problem =>
    rw [applyToFile_of_load_error hload]
    refine .unloaded fun config hconfig => ?_
    rw [RunnerConfig.loadOrEmpty_eq_ok_iff.2 hconfig] at hload
    contradiction
  | ok config =>
    have hconfig := RunnerConfig.loadOrEmpty_eq_ok_iff.1 hload
    cases merged with
    | none =>
      rw [applyToFile_of_printed hload]
      exact .printed hconfig rfl
    | some name =>
      cases hsave : (config.merge plan options).save files s.directory name with
      | error problem =>
        rw [applyToFile_of_save_error hload hsave]
        refine .unsaved hconfig rfl fun hwrite => ?_
        obtain ⟨saved, hsaved⟩ := FileTree.exists_write_iff.2 hwrite
        rw [RunnerConfig.save_eq_ok_iff.2 hsaved] at hsave
        contradiction
      | ok saved =>
        rw [applyToFile_of_save_ok hload hsave]
        have hwritten := RunnerConfig.save_eq_ok_iff.1 hsave
        exact .saved hconfig rfl (FileTree.exists_write_iff.1 ⟨saved, hwritten⟩)
          (FileTree.replaces_of_write hwritten) fun hread =>
            FileTree.readText_of_write hwritten hread

section
variable {outcome : Outcome Unit} (h : Ends plan input merged options s files outcome)
include h

theorem Ends.of_error {failure : Failure} (hresult : outcome.result = .error failure) :
    outcome.files = files
      ∧ ((∀ config, ¬ RunnerConfig.IsLoaded files s.directory input config) ∧ outcome.output = []
        ∨ ∃ config, RunnerConfig.IsLoaded files s.directory input config
          ∧ outcome.output = reportText (config.mergeReport plan options) s.colored) := by
  cases h with
  | unloaded h => exact ⟨rfl, .inl ⟨h, rfl⟩⟩
  | printed h hmerged => contradiction
  | unsaved h hmerged hwrite => exact ⟨rfl, .inr ⟨_, h, rfl⟩⟩
  | saved h hmerged hwrite hsaved hread => contradiction

theorem Ends.of_ok (hresult : outcome.result = .ok ()) :
    ∃ config, RunnerConfig.IsLoaded files s.directory input config
      ∧ (merged = none → outcome.files = files
        ∧ outcome.output = (config.merge plan options).toJson.pretty ++ ['\n'])
      ∧ ∀ name, merged = some name →
        files.Replaces s.directory name (config.merge plan options).toJson.pretty outcome.files
          ∧ (files.MayRead s.directory name → outcome.files.readText s.directory name
              = .ok (config.merge plan options).toJson.pretty)
          ∧ outcome.output
              = reportText (config.mergeReport plan options) s.colored
                  ++ closingLine name s.colored := by
  cases h with
  | unloaded h => contradiction
  | printed h hmerged =>
    refine ⟨_, h, fun _ => ⟨rfl, rfl⟩, fun name hname => ?_⟩
    rw [hmerged] at hname
    contradiction
  | unsaved h hmerged hwrite => contradiction
  | saved h hmerged hwrite hsaved hread =>
    refine ⟨_, h, fun hnone => ?_, fun name hname => ?_⟩
    · rw [hmerged] at hnone
      contradiction
    · obtain rfl := Option.some.inj (hmerged.symm.trans hname)
      exact ⟨hsaved, hread, rfl⟩

theorem Ends.of_not_isLoaded
    (hnot : ∀ config, ¬ RunnerConfig.IsLoaded files s.directory input config) :
    outcome.output = [] ∧ ∃ failure, outcome.result = .error failure := by
  cases h with
  | unloaded h => exact ⟨rfl, _, rfl⟩
  | printed h hmerged => exact absurd h (hnot _)
  | unsaved h hmerged hwrite => exact absurd h (hnot _)
  | saved h hmerged hwrite hsaved hread => exact absurd h (hnot _)

theorem Ends.ok_iff :
    outcome.result = .ok () ↔
      (∃ config, RunnerConfig.IsLoaded files s.directory input config)
        ∧ ∀ name, merged = some name → files.CanWrite s.directory name := by
  cases h with
  | unloaded h =>
    refine iff_of_false nofun ?_
    rintro ⟨⟨config, hconfig⟩, -⟩
    exact h config hconfig
  | printed h hmerged =>
    refine iff_of_true rfl ⟨⟨_, h⟩, fun name hname => ?_⟩
    rw [hmerged] at hname
    contradiction
  | unsaved h hmerged hwrite =>
    refine iff_of_false nofun ?_
    rintro ⟨-, hall⟩
    exact hwrite (hall _ hmerged)
  | saved h hmerged hwrite hsaved hread =>
    refine iff_of_true rfl ⟨⟨_, h⟩, fun name hname => ?_⟩
    obtain rfl := Option.some.inj (hmerged.symm.trans hname)
    exact hwrite

end

/-- **Applying a plan is all or nothing.** A failed run leaves all files as they were, and it prints
nothing, or the report without the line that closes it. A run without a name for the merged
configuration leaves them as well and prints that configuration; with a name it replaces the file
under it as a whole and touches nothing else. The merged configuration is made from what is loaded
from the input as it was before. A run succeeds exactly if the input can be loaded and the file can
be written.

So what stands under the name of the input, but gives no configuration, fails the run if it is in
view. If it is not, then the run goes on with the empty configuration, and succeeds if the file can
be written. -/
theorem applyToFile_allOrNothing (plan : Plan) (input : Text) (merged : Option Text)
    (options : MergeOptions) (s : Surroundings) (files : FileTree) :
    let outcome := applyToFile plan input merged options s files
    (∀ failure, outcome.result = .error failure → outcome.files = files
        ∧ ((∀ config, ¬ RunnerConfig.IsLoaded files s.directory input config)
            ∧ outcome.output = []
          ∨ ∃ config, RunnerConfig.IsLoaded files s.directory input config
            ∧ outcome.output = reportText (config.mergeReport plan options) s.colored))
      ∧ (outcome.result = .ok () → ∃ config, RunnerConfig.IsLoaded files s.directory input config
        ∧ (merged = none → outcome.files = files
          ∧ outcome.output = (config.merge plan options).toJson.pretty ++ ['\n'])
        ∧ ∀ name, merged = some name →
          files.Replaces s.directory name (config.merge plan options).toJson.pretty outcome.files
            ∧ (files.MayRead s.directory name → outcome.files.readText s.directory name
                = .ok (config.merge plan options).toJson.pretty)
            ∧ outcome.output
                = reportText (config.mergeReport plan options) s.colored
                    ++ closingLine name s.colored)
      ∧ (outcome.result = .ok () ↔
          (∃ config, RunnerConfig.IsLoaded files s.directory input config)
            ∧ ∀ name, merged = some name → files.CanWrite s.directory name)
      ∧ ∀ entry, files.Stands s.directory input entry →
          (∀ config, ¬ (RunnerConfig.Holds entry config ∧ files.MayRead s.directory input)) →
          (files.InView s.directory input →
            outcome.output = [] ∧ ∃ failure, outcome.result = .error failure)
          ∧ (¬ files.InView s.directory input →
            (∀ config, RunnerConfig.IsLoaded files s.directory input config ↔ config = .empty)
              ∧ (outcome.result = .ok () ↔
                ∀ name, merged = some name → files.CanWrite s.directory name)) := by
  intro outcome
  have hends : Ends plan input merged options s files outcome :=
    ends_applyToFile plan input merged options s files
  refine ⟨fun failure hfailure => hends.of_error hfailure, hends.of_ok, hends.ok_iff,
    fun entry hstands hnot => ⟨fun hview => ?_, fun hview => ?_⟩⟩
  · exact hends.of_not_isLoaded fun config =>
      RunnerConfig.not_isLoaded_of_stands hstands hview hnot
  · have hempty : ∀ config,
        RunnerConfig.IsLoaded files s.directory input config ↔ config = .empty :=
      fun config => RunnerConfig.isLoaded_iff_of_not_inView hview
    exact ⟨hempty, hends.ok_iff.trans (and_iff_right ⟨_, (hempty _).2 rfl⟩)⟩

/-! ### Files that are not seen -/

/-- Surroundings without anything in them. -/
def quiet : Surroundings :=
  { directory := []
    variableOf := fun _ => none
    objects := fun _ _ => none
    input := []
    network := fun _ => none
    colored := false }

/-- The name of a configuration file. -/
def runnerFile : Text := "runner.json".toList

/-- A file that is no configuration. -/
def brokenFile : FileTree := FileTree.empty.add [runnerFile] (Utf8.encode "broken".toList)

/-- A file that is no configuration, in a directory that may not be entered. -/
def lockedFile : FileTree :=
  (FileTree.empty.add ["locked".toList, runnerFile] (Utf8.encode "broken".toList)).refuse
    ["locked".toList] .enter .permissionDenied

theorem not_holds_broken (config : RunnerConfig) :
    ¬ RunnerConfig.Holds (.file (Utf8.encode "broken".toList)) config := by
  rintro ⟨bytes, content, tree, hbytes, htext, hjson, -⟩
  obtain rfl := FileEntry.file.inj hbytes
  rw [Utf8.decode?_encode] at htext
  obtain rfl := Option.some.inj htext
  have hnone : Json.Tree.ofText? "broken".toList = none := by decide
  rw [hnone] at hjson
  contradiction

/-- **A file that is not seen passes for a missing one.** The first is in a directory that may not
be entered, and what is written is the empty configuration. The second has a name that goes through
its own directory 2048 times. That is too long to be looked at, and the file is overwritten under
its short name, although it is no configuration. -/
theorem applyToFile_unseen :
    (∀ config, ¬ RunnerConfig.Holds (.file (Utf8.encode "broken".toList)) config)
      ∧ (lockedFile.Stands [] "locked/runner.json".toList (.file (Utf8.encode "broken".toList))
        ∧ let outcome := applyToFile Plan.empty "locked/runner.json".toList
            (some "merged.json".toList) .all quiet lockedFile
          outcome.result = .ok ()
            ∧ outcome.files.readText [] "merged.json".toList
              = .ok "\x7b\n  \"env\": \x7b\x7d\n\x7d".toList)
      ∧ (brokenFile.Stands [] (FileTree.detour 2048 runnerFile)
          (.file (Utf8.encode "broken".toList))
        ∧ let outcome := applyToFile Plan.empty (FileTree.detour 2048 runnerFile)
            (some runnerFile) .all quiet brokenFile
          outcome.result = .ok ()
            ∧ outcome.files.readText [] runnerFile
              = .ok "\x7b\n  \"env\": \x7b\x7d\n\x7d".toList) := by
  refine ⟨not_holds_broken, ⟨?_, ?_⟩, FileTree.stands_detour ?_ (by decide) 2048, ?_⟩
  · exact ⟨by decide, by decide, ["locked".toList, runnerFile], rfl, rfl⟩
  · exact ⟨rfl, rfl⟩
  · exact ⟨by decide, by decide, [runnerFile], rfl, rfl⟩
  · -- The name is far too long to be evaluated, but it is known what is loaded from it.
    have hload : RunnerConfig.loadOrEmpty brokenFile quiet.directory
        (FileTree.detour 2048 runnerFile) = .ok .empty :=
      RunnerConfig.loadOrEmpty_eq_ok_iff.2 <| (RunnerConfig.isLoaded_iff_of_not_inView <|
        FileTree.not_inView_detour (by decide) [] runnerFile).2 rfl
    obtain ⟨saved, hsave, hread⟩ : ∃ saved,
        RunnerConfig.save (RunnerConfig.empty.merge Plan.empty .all) brokenFile quiet.directory
          runnerFile = .ok saved
        ∧ saved.readText [] runnerFile = .ok "\x7b\n  \"env\": \x7b\x7d\n\x7d".toList :=
      ⟨_, rfl, rfl⟩
    dsimp only
    rw [applyToFile_of_save_ok hload hsave]
    exact ⟨rfl, hread⟩

end Command
end PullPlan
