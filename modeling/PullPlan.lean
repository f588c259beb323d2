import PullPlan.Main
import PullPlan.Proofs.Plan.Append
import PullPlan.Proofs.Plan.RoundTrip
import PullPlan.Proofs.RunnerConfig.GrepFilter
import PullPlan.Proofs.RunnerConfig.Run
import PullPlan.Proofs.Json.FloatText
import PullPlan.Proofs.Json.Tree
import PullPlan.Proofs.Json.Integer
import PullPlan.Proofs.Json.Decoding
import PullPlan.Proofs.RunnerConfig.Reading
import PullPlan.Proofs.RunnerConfig.Codec
import PullPlan.Proofs.FileTree
import PullPlan.Proofs.RunnerConfig.Drift
import PullPlan.Proofs.Command.Apply
import PullPlan.Proofs.Plan.LineEndings
import PullPlan.Proofs.Plan.Clean
import PullPlan.Proofs.Plan.Summary
import PullPlan.Proofs.PullRequest.Url
import PullPlan.Proofs.GitHub.Conversation
import PullPlan.Proofs.GitHub.OpenPulls
import PullPlan.Proofs.GitHub.Address
import PullPlan.Proofs.ListBlock.Extent
import PullPlan.Proofs.Command.AllOrNothing
import PullPlan.Proofs.CommandLine.Verdict
import PullPlan.Proofs.Number.Lookalike
import PullPlan.Proofs.EnvValue.Cascade
import PullPlan.Proofs.EnvValue.Integer
import PullPlan.Proofs.RunnerConfig.Report
import PullPlan.Proofs.RunnerConfig.Agreement
import PullPlan.Proofs.Directive
import PullPlan.Proofs.Tags.Scan
import PullPlan.Proofs.Tags.Split
import PullPlan.Proofs.Target.Resolve
