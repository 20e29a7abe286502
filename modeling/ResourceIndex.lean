import ResourceIndex.Folder
import ResourceIndex.Item
import ResourceIndex.Configuration.Stored
import ResourceIndex.Declaration.Values
import ResourceIndex.Declaration.InlineIds
import ResourceIndex.Layout.Paste
import ResourceIndex.EventBus
import ResourceIndex.Progress.Log
import ResourceIndex.Progress.Bar
import ResourceIndex.Progress.Recorder
import ResourceIndex.Repository.Basic
import ResourceIndex.IndexFault
import ResourceIndex.FileSystem.Basic
import ResourceIndex.GlobPattern.Matching
import ResourceIndex.Text.Quoted
import ResourceIndex.Scan.Run
import ResourceIndex.Settings.Store
import ResourceIndex.CommandLine.Run
import ResourceIndex.Main
import ResourceIndex.Proofs.Repository.Rescan
import ResourceIndex.Proofs.Repository.Replay
import ResourceIndex.Proofs.Repository.Replaced
import ResourceIndex.Proofs.Repository.Declared
import ResourceIndex.Proofs.Item.Edits
import ResourceIndex.Proofs.Layout.FreshId
import ResourceIndex.Proofs.Layout.Pasting
import ResourceIndex.Proofs.Layout.Distinct
import ResourceIndex.Proofs.Layout.References
import ResourceIndex.Proofs.Layout.LeastId
import ResourceIndex.Proofs.Layout.Capture
import ResourceIndex.Proofs.Layout.Composition
import ResourceIndex.Proofs.Qualifier.Vocabulary
import ResourceIndex.Proofs.Qualifier.Lexeme
import ResourceIndex.Proofs.Qualifier.Letters
import ResourceIndex.Proofs.Configuration.Settings
import ResourceIndex.Proofs.Qualifier.Range
import ResourceIndex.Proofs.Configuration.Grammar
import ResourceIndex.Proofs.Configuration.RoundTrip
import ResourceIndex.Proofs.Configuration.Dropped
import ResourceIndex.Proofs.Markup.Gap
import ResourceIndex.Proofs.Markup.Forest
import ResourceIndex.Proofs.Declaration.Values
import ResourceIndex.Proofs.Layout.Keys
import ResourceIndex.Proofs.Layout.Writing
import ResourceIndex.Proofs.Layout.Copying
import ResourceIndex.Proofs.Layout.Containment
import ResourceIndex.Proofs.Layout.Respelling
import ResourceIndex.Proofs.FileSystem.Tree
import ResourceIndex.Proofs.FileSystem.Walk
import ResourceIndex.Proofs.Progress.Transcript
import ResourceIndex.Proofs.Scan.Course
import ResourceIndex.Proofs.Scan.Eligible
import ResourceIndex.Proofs.Scan.Complete
import ResourceIndex.Proofs.Scan.Failed
import ResourceIndex.Proofs.FileSystem.Changes
import ResourceIndex.Proofs.EventBus.History
import ResourceIndex.Proofs.Command.Agreement
import ResourceIndex.Proofs.Command.Reordered
import ResourceIndex.Proofs.Scan.InlineIds
import ResourceIndex.Proofs.Scan.Counted
import ResourceIndex.Proofs.Settings.RoundTrip
import ResourceIndex.Proofs.Progress.Agreement
import ResourceIndex.Proofs.Declaration.Readers
import ResourceIndex.Proofs.Scan.Nameless
