import FuzzHarness.Main
import FuzzHarness.Finding.Backtrace
import FuzzHarness.Target.Script
import FuzzHarness.Proofs.Text.Base64
import FuzzHarness.Proofs.Text.Utf8
import FuzzHarness.Proofs.Recording.Codec
import FuzzHarness.Proofs.Input.Cursor
import FuzzHarness.Proofs.Input.Conversation
import FuzzHarness.Proofs.Input.Agreement
import FuzzHarness.Proofs.Budget
import FuzzHarness.Proofs.Runner.Feeding
import FuzzHarness.Proofs.Runner.ReportLaw
import FuzzHarness.Proofs.Reproducer.Artifact
import FuzzHarness.Proofs.Files.Path
import FuzzHarness.Proofs.Files.Tree
import FuzzHarness.Proofs.Reproducer.Run
import FuzzHarness.Proofs.Runner.Files
import FuzzHarness.Proofs.Target.Conversation
import FuzzHarness.Proofs.Reproducer.Bytes
import FuzzHarness.Proofs.Runner.Idle
import FuzzHarness.Proofs.Target.Transcript
import FuzzHarness.Proofs.Target.Straight
import FuzzHarness.Proofs.Reproducer.Provider
import FuzzHarness.Proofs.Finding.Identity
import FuzzHarness.Proofs.Reproducer.Edited
import FuzzHarness.Proofs.Runner.Closing
import FuzzHarness.Proofs.Target.Deeds
import FuzzHarness.Proofs.Target.Moments
import FuzzHarness.Proofs.Target.Resumption
import FuzzHarness.Proofs.Target.Scopes
import FuzzHarness.Proofs.Runner.Isolation
import FuzzHarness.Proofs.Settings
import FuzzHarness.Proofs.Runner.Ignoring
import FuzzHarness.Proofs.Runner.Escape
import FuzzHarness.Proofs.Reproducer.HandOver
import FuzzHarness.Proofs.Files.Save
import FuzzHarness.Proofs.Demo
import FuzzHarness.Proofs.Runner.Saving
import FuzzHarness.Proofs.Demo.Run
import FuzzHarness.Proofs.CommandLine.Inputs
import FuzzHarness.Proofs.CommandLine.Run
import FuzzHarness.Proofs.CommandLine.Reproduce
import FuzzHarness.Proofs.Reproducer.Rerun
import FuzzHarness.Proofs.Input.Number
import FuzzHarness.Proofs.Input.Demand
import FuzzHarness.Proofs.Input.Reading
import FuzzHarness.Proofs.Input.Checked
import FuzzHarness.Proofs.Input.Ledger
import FuzzHarness.Proofs.Input.Ranges
import FuzzHarness.Proofs.Input.Sides
import FuzzHarness.Proofs.Finding.Stripper
import FuzzHarness.Proofs.Finding.Sight
import FuzzHarness.Proofs.Text.Numeral
import FuzzHarness.Proofs.Settings.Entry
import FuzzHarness.Proofs.Text.Lenient
import FuzzHarness.Proofs.Input.Possible
import FuzzHarness.Proofs.Recording.Serving
import FuzzHarness.Proofs.Coverage.Sinks
import FuzzHarness.Proofs.Finding.Backtrace
import FuzzHarness.Proofs.Reproducer.Call
import FuzzHarness.Proofs.Finding.Above
