import JuceWorkbench.Main
import JuceWorkbench.Toml.Scalar
import JuceWorkbench.Toml.Sweep
import JuceWorkbench.Proofs.Text.Line
import JuceWorkbench.Proofs.Script.Listing
import JuceWorkbench.Proofs.Script.Insertion
import JuceWorkbench.Proofs.Script.MarkerPair
import JuceWorkbench.Proofs.Script.CallBlock
import JuceWorkbench.Proofs.Script.Registration
import JuceWorkbench.Proofs.Scaffold.Script
import JuceWorkbench.Proofs.Script.MarkerRun
import JuceWorkbench.Proofs.Script.CallRun
import JuceWorkbench.Proofs.Text.Words
import JuceWorkbench.Proofs.Script.Reading
import JuceWorkbench.Proofs.Script.CallReading
import JuceWorkbench.Proofs.Script.Preservation
import JuceWorkbench.Proofs.Tree.Folder
import JuceWorkbench.Proofs.Tree.Location
import JuceWorkbench.Proofs.Artifact.Walk
import JuceWorkbench.Proofs.Artifact.Choice
import JuceWorkbench.Proofs.Artifact.Resolution
import JuceWorkbench.Proofs.Artifact.Configuration
import JuceWorkbench.Proofs.Bench.Outcome
import JuceWorkbench.Proofs.Bench.Files
import JuceWorkbench.Proofs.SideFile.Entries
import JuceWorkbench.Proofs.SideFile.Loading
import JuceWorkbench.Proofs.SideFile.Remembering
import JuceWorkbench.Proofs.Path.Normal
import JuceWorkbench.Proofs.SideFile.Acceptance
import JuceWorkbench.Proofs.Bench.Keeping
import JuceWorkbench.Proofs.SideFile.Setting
import JuceWorkbench.Proofs.Bench.Changes
import JuceWorkbench.Proofs.Path.LastPart
import JuceWorkbench.Proofs.Script.File
import JuceWorkbench.Proofs.Scaffold.Refusal
import JuceWorkbench.Proofs.Bench.Folders
import JuceWorkbench.Proofs.Scaffold.Site
import JuceWorkbench.Proofs.Scaffold.ElementName
import JuceWorkbench.Proofs.Scaffold.Stock
import JuceWorkbench.Proofs.Scaffold.Creation
import JuceWorkbench.Proofs.Scaffold.Additions
import JuceWorkbench.Proofs.Artifact.PathText
import JuceWorkbench.Proofs.Artifact.Preorder
import JuceWorkbench.Proofs.Artifact.Relocation
import JuceWorkbench.Proofs.Script.LongerName
import JuceWorkbench.Proofs.Script.Replacing
import JuceWorkbench.Proofs.Bench.Command
import JuceWorkbench.Proofs.SideFile.Home
import JuceWorkbench.Proofs.Artifact.Rewriting
import JuceWorkbench.Proofs.Bench.Starting
import JuceWorkbench.Proofs.Build.Pipeline
import JuceWorkbench.Proofs.Build.Keeping
import JuceWorkbench.Proofs.Script.CallSearch
import JuceWorkbench.Proofs.Script.LineEndings
import JuceWorkbench.Proofs.SideFile.LastUsed
import JuceWorkbench.Proofs.CommandLine.Validation
import JuceWorkbench.Proofs.Scaffold.Reloading
import JuceWorkbench.Proofs.SideFile.Lookup
import JuceWorkbench.Proofs.Repository.IgnoreFile
import JuceWorkbench.Proofs.Bench.Pruning
import JuceWorkbench.Proofs.Bench.NewestLog
import JuceWorkbench.Proofs.Tree.Removal
import JuceWorkbench.Proofs.Bench.Removal
import JuceWorkbench.Proofs.SideFile.Metadata
import JuceWorkbench.Proofs.CommandLine.Cleaning
import JuceWorkbench.Proofs.Project.Metadata
import JuceWorkbench.Proofs.Text.ShellWord
