import CueSheet.Main
import CueSheet.Tempo.Operation
import CueSheet.Proofs.Process.Schedule
import CueSheet.Proofs.Process.Stumble
import CueSheet.Proofs.Cue.Accepted
import CueSheet.Proofs.Render.Survive
import CueSheet.Proofs.Tempo.Edit
import CueSheet.Proofs.Value.Same
import CueSheet.Proofs.Numeric.Exact
import CueSheet.Proofs.Tempo.Inverse
import CueSheet.Proofs.Timeline.Source
import CueSheet.Proofs.Timeline.Sorted
import CueSheet.Proofs.Render.Cue
import CueSheet.Proofs.Line
import CueSheet.Proofs.Document.Content
import CueSheet.Proofs.Document.Errors
import CueSheet.Proofs.Render.Header
import CueSheet.Proofs.Render.Settings
import CueSheet.Proofs.Render.Lines
import CueSheet.Proofs.Render.Song
import CueSheet.Proofs.Render.Validation
import CueSheet.Proofs.Process.Accepted
import CueSheet.Proofs.Process.Reprocess
import CueSheet.Proofs.Validation.Written
import CueSheet.Proofs.Process.Consistent
import CueSheet.Proofs.Document.Layout
import CueSheet.Proofs.Document.Append
import CueSheet.Proofs.Document.HeaderOrder
import CueSheet.Proofs.Timeline.Beside
import CueSheet.Proofs.Value.Alike
import CueSheet.Proofs.Timeline.Canonical
import CueSheet.Proofs.Timeline.Seconds
import CueSheet.Proofs.Tempo.Integral
import CueSheet.Proofs.Tempo.Local
import CueSheet.Proofs.Tempo.Commute
import CueSheet.Proofs.Validation.Tempo
import CueSheet.Proofs.Timeline.Retime
import CueSheet.Proofs.Timeline.Refused
import CueSheet.Proofs.Timeline.Removed
import CueSheet.Proofs.Timeline.WrittenOut
import CueSheet.Proofs.Document.Resolved
import CueSheet.Proofs.Process.Strict
import CueSheet.Proofs.Render.Legible
import CueSheet.Proofs.Cue.Origin
import CueSheet.Proofs.Document.AtTempo
import CueSheet.Proofs.Line.Grammar
import CueSheet.Proofs.Cue.Accounted
import CueSheet.Proofs.Document.Identifiers
import CueSheet.Proofs.Validation.Namespace
import CueSheet.Proofs.Slug
import CueSheet.Proofs.Cue.Scanner
import CueSheet.Proofs.Validation.Stumble
import CueSheet.Proofs.Command.Parse
import CueSheet.Proofs.Duration.Beats
import CueSheet.Proofs.Text.Lines
