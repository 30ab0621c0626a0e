import CommandGate.Main
import CommandGate.Rehearsal
import CommandGate.FileTree.Arrange
import CommandGate.FileTree.Lemmas
import CommandGate.Session
import CommandGate.Proofs.Session.Initialization
import CommandGate.Proofs.Session.Log
import CommandGate.Proofs.Session.Noninterference
import CommandGate.Proofs.Program.Completion
import CommandGate.Proofs.Program.Lifecycle
import CommandGate.Proofs.Program.Touches
import CommandGate.Proofs.Telemetry.RoundTrip
import CommandGate.Proofs.CommandLine.Insertion
import CommandGate.Proofs.Program.Stdin
import CommandGate.Proofs.Tutorial.Stored
import CommandGate.Proofs.Program.TutorialCommand
import CommandGate.Proofs.Session.LastWrite
import CommandGate.Proofs.Program.Reminder
import CommandGate.Proofs.Program.Version
import CommandGate.Proofs.FileTree.Standing
import CommandGate.Proofs.Tutorial.Contents
import CommandGate.Proofs.Program.Endings
import CommandGate.Proofs.Lifecycle.Stage
import CommandGate.Proofs.Lifecycle.Status
import CommandGate.Proofs.Program.Calls
import CommandGate.Proofs.Program.CompletionOutput
import CommandGate.Proofs.Program.Effects
import CommandGate.Proofs.Program.Trail
import CommandGate.Proofs.Session.Repetition
import CommandGate.Proofs.Lifecycle.Protocol
import CommandGate.Proofs.Tutorial.Showing
import CommandGate.Proofs.FileTree.Making
import CommandGate.Proofs.Program.Directories
import CommandGate.Proofs.Tutorial.Setting
import CommandGate.Proofs.Telemetry.Admission
import CommandGate.Proofs.Telemetry.Conformance
import CommandGate.Proofs.CommandLine.Outcomes
import CommandGate.Proofs.CommandLine.Usages
import CommandGate.Proofs.Program.Parsing
import CommandGate.Proofs.Text.Strip
import CommandGate.Proofs.Release.LookUps
import CommandGate.Proofs.Number.Spelling
import CommandGate.Proofs.Settings.TimeLimit
