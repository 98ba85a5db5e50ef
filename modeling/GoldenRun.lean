import GoldenRun.Disk.Change
import GoldenRun.Execution.Spawn
import GoldenRun.Main
import GoldenRun.Program
import GoldenRun.Proofs.Template.Variable
import GoldenRun.Proofs.Run.ActiveFile
import GoldenRun.Proofs.Run.Diagnosis
import GoldenRun.Proofs.Run.Likeness
import GoldenRun.Proofs.Run.Selection
import GoldenRun.Proofs.Run.Tolerance
import GoldenRun.Proofs.Disk.Trail
import GoldenRun.Proofs.Run.Repetition
import GoldenRun.Proofs.ExitStatus
import GoldenRun.Proofs.Fixture.Listing
import GoldenRun.Proofs.Fixture.Paths
import GoldenRun.Proofs.Yaml.NumberText
import GoldenRun.Proofs.Yaml.Roundtrip
import GoldenRun.Proofs.Build
import GoldenRun.Proofs.Execution.Lifetime
import GoldenRun.Proofs.Fixture.Sharing
import GoldenRun.Proofs.Text.Decoding
import GoldenRun.Proofs.Matching
import GoldenRun.Proofs.Disk.Errors
import GoldenRun.Proofs.Failure
import GoldenRun.Proofs.FileErrors
import GoldenRun.Proofs.Fixture.Loading
import GoldenRun.Proofs.Run.Preservation
import GoldenRun.Proofs.Run.Judgement
import GoldenRun.Proofs.Config.Grammar
import GoldenRun.Proofs.Shell.Word
import GoldenRun.Proofs.Text.Line
import GoldenRun.Proofs.Expected.Missing
import GoldenRun.Proofs.Path.Join
import GoldenRun.Proofs.Disk.Directory
import GoldenRun.Proofs.Fixture.Discovery
import GoldenRun.Proofs.Config.Loading
import GoldenRun.Proofs.Expected.Policy
import GoldenRun.Proofs.Visit
import GoldenRun.Proofs.Build.Command
import GoldenRun.Proofs.CommandLine.TimeLimit
import GoldenRun.Proofs.Config.Complaints
import GoldenRun.Proofs.Execution.Timer
import GoldenRun.Proofs.Number.Numeral
