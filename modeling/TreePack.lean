import TreePack.Bytes
import TreePack.Candidate
import TreePack.Event
import TreePack.FileSystem.Access
import TreePack.FileSystem.Basic
import TreePack.FileSystem.Canonical
import TreePack.FileSystem.Edit
import TreePack.FileSystem.Node
import TreePack.FileSystem.Resolve
import TreePack.IoError
import TreePack.Main
import TreePack.Path
import TreePack.Proofs.Access
import TreePack.Proofs.Descent
import TreePack.Proofs.Resolution
import TreePack.Proofs.Selection
import TreePack.Proofs.TreeUpdate
import TreePack.Proofs.Visits
import TreePack.Proofs.Writing
import TreePack.Rules
import TreePack.Run
import TreePack.Shell.Arguments
import TreePack.Shell.LogFilter
import TreePack.Shell.LogRecord
import TreePack.Shell.Pattern.Basic
import TreePack.Shell.Pattern.Brackets
import TreePack.Shell.Pattern.Mode
import TreePack.Shell.Pattern.Sign
import TreePack.Shell.Program
import TreePack.Shell.Similarity
import TreePack.Shell.Terminal
import TreePack.Survey
import TreePack.Text.Alphabet
import TreePack.Text.CharClass
import TreePack.Text.Newline
import TreePack.Text.Utf8
import TreePack.Proofs.Completion
import TreePack.Proofs.Rerun
import TreePack.Proofs.Accounting
import TreePack.Proofs.Correspondence
import TreePack.Proofs.Crossing
import TreePack.Proofs.Lockstep
import TreePack.Proofs.Meeting
import TreePack.Proofs.Reading
import TreePack.Proofs.Creation
import TreePack.Proofs.Likeness
import TreePack.Proofs.Unaffected
import TreePack.Proofs.Order
import TreePack.Proofs.Pruning
import TreePack.Proofs.Rendering
import TreePack.Proofs.Spelling
import TreePack.Proofs.Frame
import TreePack.Proofs.Isolation
import TreePack.Proofs.Refusal
import TreePack.Proofs.Sight
import TreePack.Proofs.SelfExclusion
import TreePack.Proofs.Contribution
import TreePack.Proofs.TrailOrder
import TreePack.Proofs.Covering
import TreePack.Proofs.TrailDisplay
import TreePack.Proofs.Subdirectory
import TreePack.Proofs.Success
import TreePack.Proofs.Passage
import TreePack.Proofs.Unlistable
import TreePack.Proofs.OwnPath
import TreePack.Proofs.LinkCycle
import TreePack.Proofs.VisitedLink
import TreePack.Proofs.Outcome
import TreePack.Proofs.LinkSafety
import TreePack.Proofs.Endless
import TreePack.Proofs.Decoding
import TreePack.Proofs.DisplayedNames
import TreePack.Proofs.LineEnds
import TreePack.Proofs.CanonicalPath
import TreePack.Proofs.Retracing
import TreePack.Proofs.ReportedOutput
import TreePack.Proofs.ArgumentForms
import TreePack.Proofs.ExitStatus
