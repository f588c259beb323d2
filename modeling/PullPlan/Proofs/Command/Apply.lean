import PullPlan.Proofs.Command.AllOrNothing
import PullPlan.Proofs.RunnerConfig.Drift

/-!
# Applying a plan in place

`applyToFile` may read and write the same file, and it may do so again and again. The first time it
leaves the text of the merged configuration, and `applyInPlace_twice` says when the second time
leaves the same bytes: when the doubles that the plan does not set are read back, or when the file
is no configuration any more or could not be written to in the first place. A double that is not
read back is no rarity (`applyInPlace_drifts`).
-/

namespace PullPlan

namespace Command

variable {s : Surroundings} {files : FileTree} {name : Text} {config : RunnerConfig}

/-- Merges a plan into a configuration file, in place. -/
def applyInPlace (plan : Plan) (options : MergeOptions) (name : Text) : Command Unit :=
  applyToFile plan name (some name) options

/-- A file that can be loaded and written to is rewritten. -/
theorem applyInPlace_of_load (plan : Plan) (options : MergeOptions)
    (hload : RunnerConfig.load files s.directory name = .ok config)
    (hwrite : files.CanWrite s.directory name) :
    (applyInPlace plan options name s files).result = .ok () ∧
      (applyInPlace plan options name s files).files.read s.directory name
        = .ok (Utf8.encode (config.merge plan options).text) ∧
      (applyInPlace plan options name s files).files.readText s.directory name
        = .ok (config.merge plan options).text ∧
      (applyInPlace plan options name s files).files.CanWrite s.directory name := by
  obtain ⟨bytes, hread⟩ := RunnerConfig.exists_read_of_load hload
  obtain ⟨saved, hsaved⟩ : ∃ saved, files.write s.directory name (config.merge plan options).text
      = .ok saved := FileTree.exists_write_iff.2 hwrite
  have hmay := (FileTree.read_eq_ok_iff_sees.1 hread).2
  have hsave : (config.merge plan options).save files s.directory name = .ok saved := by
    rw [RunnerConfig.save, hsaved]
  rw [applyInPlace,
    applyToFile_of_save_ok ((RunnerConfig.loadOrEmpty_of_read hread).trans hload) hsave]
  exact ⟨rfl, FileTree.read_of_write hsaved hmay, FileTree.readText_of_write hsaved hmay,
    FileTree.canWrite_of_write hread hsaved⟩

/-- A file that cannot be written stays as it is. -/
theorem applyInPlace_of_not_canWrite (plan : Plan) (options : MergeOptions)
    (hwrite : ¬ files.CanWrite s.directory name) :
    (applyInPlace plan options name s files).files = files := by
  have hends : Ends plan name (some name) options s files
      (applyInPlace plan options name s files) := ends_applyToFile _ _ _ _ _ _
  cases hresult : (applyInPlace plan options name s files).result with
  | error failure => exact (hends.of_error hresult).1
  | ok u => exact absurd ((hends.ok_iff.1 hresult).2 name rfl) hwrite

/-- **When applying a plan again changes nothing.** Of a file that can be loaded, and that it is not
refused to write to, the first run leaves the text of the merged configuration. The second run
leaves the same bytes exactly if that text is no configuration any more, so that the run fails, or
every double in a value that the plan does not set is read back. Both runs leave a file alone that
it is refused to write to. -/
theorem applyInPlace_twice (plan : Plan) (options : MergeOptions)
    (hload : RunnerConfig.load files s.directory name = .ok config) :
    let once := applyInPlace plan options name s files
    let twice := applyInPlace plan options name s once.files
    (files.CanWrite s.directory name ↔ ∀ path, files.resolve s.directory name = .ok path →
      files.refusal? path .write = none) ∧
    (files.CanWrite s.directory name → once.result = .ok () ∧
      once.files.readText s.directory name = .ok (config.merge plan options).text ∧
      (twice.files.read s.directory name = once.files.read s.directory name ↔
        RunnerConfig.load once.files s.directory name = .error .json ∨
          config.KeepsDoubles plan options)) ∧
    (¬ files.CanWrite s.directory name → once.files = files ∧ twice.files = files) := by
  intro once twice
  obtain ⟨bytes, hbytes⟩ := RunnerConfig.exists_read_of_load hload
  refine ⟨FileTree.canWrite_iff_of_read hbytes, fun hwrite => ?_, fun hwrite => ?_⟩
  · obtain ⟨hresult, hread, htext, hwrite'⟩ := applyInPlace_of_load plan options hload hwrite
    refine ⟨hresult, htext, ?_⟩
    cases hagain : RunnerConfig.ofText? (config.merge plan options).text with
    | none =>
      -- The second run fails before it writes.
      have hload' : RunnerConfig.load once.files s.directory name = .error .json :=
        RunnerConfig.load_eq_json_iff.2 ⟨_, htext, hagain⟩
      have hfails : twice = ⟨[], [], once.files, .error (.runnerConfig .json)⟩ :=
        applyToFile_of_load_error ((RunnerConfig.loadOrEmpty_of_read hread).trans hload')
      have hfiles : twice.files = once.files := by rw [hfails]
      rw [hfiles]
      exact iff_of_true rfl (.inl hload')
    | some again =>
      have hload' : RunnerConfig.load once.files s.directory name = .ok again :=
        RunnerConfig.load_eq_ok_iff.2 ⟨_, htext, hagain⟩
      have hread' : twice.files.read s.directory name
          = .ok (Utf8.encode (again.merge plan options).text) :=
        (applyInPlace_of_load plan options hload' hwrite').2.1
      obtain ⟨content, -, hcontent⟩ := RunnerConfig.load_eq_ok_iff.1 hload
      obtain ⟨members, hfrom⟩ := RunnerConfig.exists_isReadFrom hcontent
      rw [hread', hread, hload', Except.ok.injEq, Utf8.encode_inj,
        RunnerConfig.text_merge_again_iff hfrom hagain]
      simp
  · have honce : once.files = files := applyInPlace_of_not_canWrite plan options hwrite
    have htwice : twice.files = once.files :=
      applyInPlace_of_not_canWrite plan options (honce ▸ hwrite)
    exact ⟨honce, htwice.trans honce⟩

theorem exists_of_isSome_toOption {ε α : Type} {x : Except ε α} (h : x.toOption.isSome = true) :
    ∃ a, x = .ok a := by
  cases x with
  | error e => contradiction
  | ok a => exact ⟨a, rfl⟩

/-- A configuration file with one number under a key that is not known. -/
def toleranceFile (number : Text) : FileTree :=
  FileTree.empty.add [runnerFile]
    (Utf8.encode ("\x7b\"tolerance\": ".toList ++ number ++ ['\x7d']))

/-- The ratio 0.5 is read back, so a second run leaves the same bytes. -/
theorem applyInPlace_twice_half :
    let once := applyInPlace Plan.empty .all runnerFile quiet (toleranceFile "0.5".toList)
    let twice := applyInPlace Plan.empty .all runnerFile quiet once.files
    twice.files.read [] runnerFile = once.files.read [] runnerFile ∧
    ∃ config, RunnerConfig.load (toleranceFile "0.5".toList) [] runnerFile = .ok config ∧
      config.KeepsDoubles Plan.empty .all := by
  have hloads : (RunnerConfig.load (toleranceFile "0.5".toList) [] runnerFile).toOption.isSome
      = true := by
    decide +kernel
  obtain ⟨config, hload⟩ := exists_of_isSome_toOption hloads
  have hsame : (applyInPlace Plan.empty .all runnerFile quiet
        (applyInPlace Plan.empty .all runnerFile quiet
          (toleranceFile "0.5".toList)).files).files.read [] runnerFile
      = (applyInPlace Plan.empty .all runnerFile quiet
          (toleranceFile "0.5".toList)).files.read [] runnerFile := by
    decide +kernel
  have hreloads : (RunnerConfig.load (applyInPlace Plan.empty .all runnerFile quiet
      (toleranceFile "0.5".toList)).files [] runnerFile).toOption.isSome = true := by
    decide +kernel
  obtain ⟨hwrite, hiff, -⟩ := applyInPlace_twice (s := quiet) Plan.empty .all hload
  rcases (hiff (hwrite.2 fun _ _ => rfl)).2.2.1 hsame with hfails | hkeeps
  · obtain ⟨again, hreload⟩ := exists_of_isSome_toOption hreloads
    exact absurd (hreload.symm.trans hfails) (by simp)
  · exact ⟨hsame, config, hload, hkeeps⟩

/-- **A number that nobody set drifts.** The number `2e-25` is read as the neighbour of the double
that it means, which is written as `1.9999999999999998e-25`; that text is read as the double that
`2e-25` means. So each run turns the number back to the other one. -/
theorem applyInPlace_drifts :
    let once := applyInPlace Plan.empty .all runnerFile quiet (toleranceFile "2e-25".toList)
    let twice := applyInPlace Plan.empty .all runnerFile quiet once.files
    (RunnerConfig.load (toleranceFile "2e-25".toList) [] runnerFile).toOption.isSome = true ∧
    (once.files.readText [] runnerFile).toOption
      = some "\x7b\n  \"env\": \x7b\x7d,\n  \"tolerance\": 1.9999999999999998e-25\n\x7d".toList ∧
    (twice.files.readText [] runnerFile).toOption
      = some "\x7b\n  \"env\": \x7b\x7d,\n  \"tolerance\": 2e-25\n\x7d".toList ∧
    twice.files.read [] runnerFile ≠ once.files.read [] runnerFile := by
  decide +kernel

end Command
end PullPlan
