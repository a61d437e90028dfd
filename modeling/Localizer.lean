import Localizer.Command.Performance
import Localizer.Main
import Localizer.Project.Script
import Localizer.Proofs.Edit.Relexing
import Localizer.Proofs.Edit.Plan
import Localizer.Proofs.Message.Template
import Localizer.Proofs.Message.Interpolation
import Localizer.Proofs.Resource.Keys
import Localizer.Proofs.Edit.Replace
import Localizer.Proofs.Resource.Table
import Localizer.Proofs.Extraction.Session
import Localizer.Proofs.Extraction.Accepted
import Localizer.Proofs.Workspace.Contents
import Localizer.Proofs.Extraction.Files
import Localizer.Proofs.Extraction.Results
import Localizer.Proofs.Extraction.Run
import Localizer.Proofs.Resource.Json
import Localizer.Proofs.Extraction.Rounds
import Localizer.Proofs.Dart.Scan
import Localizer.Proofs.Dart.Exclusion
import Localizer.Proofs.Edit.Rescan
import Localizer.Proofs.Edit.WiredScan
import Localizer.Proofs.Extraction.Settled
import Localizer.Proofs.Dart.Lexeme
import Localizer.Proofs.Dart.Segment
import Localizer.Proofs.Dart.AppRoot
import Localizer.Proofs.Dart.Order
import Localizer.Proofs.Resource.Calls
import Localizer.Proofs.Extraction.Entries
import Localizer.Proofs.Edit.Kept
import Localizer.Proofs.Extraction.Accounted
import Localizer.Proofs.Text.Infix
import Localizer.Proofs.Message.Pieces
import Localizer.Proofs.Message.Escape
import Localizer.Proofs.Message.Placeholder
import Localizer.Proofs.Extraction.Declared
import Localizer.Proofs.Dart.Mask
import Localizer.Proofs.Workspace.Shape
import Localizer.Proofs.Workspace.Place
import Localizer.Proofs.Workspace.Discovery
import Localizer.Proofs.Extraction.Visits
import Localizer.Proofs.Extraction.Tally
import Localizer.Proofs.Extraction.DryRun
import Localizer.Proofs.Text.Break
import Localizer.Proofs.Dart.Bracket
import Localizer.Proofs.Dart.Const
import Localizer.Proofs.Dart.Newline
import Localizer.Proofs.Dart.Declaration
import Localizer.Proofs.Edit.Constants
import Localizer.Proofs.Edit.Declaration
import Localizer.Proofs.Resource.Document
import Localizer.Proofs.Extraction.ReadBack
import Localizer.Proofs.Path.Rule
import Localizer.Proofs.Extraction.ModuleAddress
import Localizer.Proofs.Extraction.Generated
import Localizer.Proofs.Resource.Getter
import Localizer.Proofs.Message.Fragment
import Localizer.Proofs.Dart.RawString
import Localizer.Proofs.Dart.Adjacent
import Localizer.Proofs.Message.Agreement
import Localizer.Proofs.Path.AnyDepth
import Localizer.Proofs.Dart.Inside
import Localizer.Proofs.Edit.Placement
import Localizer.Proofs.Edit.Directive
import Localizer.Proofs.Message.Spelling
import Localizer.Proofs.Resource.Words
import Localizer.Proofs.Resource.CamelCase
import Localizer.Proofs.Text.Runs
import Localizer.Proofs.Resource.History
import Localizer.Proofs.Dart.OpenGroup
import Localizer.Proofs.Dart.Sibling
import Localizer.Proofs.Settings.Coercion
import Localizer.Proofs.Text.Line
import Localizer.Proofs.Diff.Patch
import Localizer.Proofs.Diff.Render
import Localizer.Proofs.Diff.Usable
import Localizer.Proofs.Extraction.Diffs
import Localizer.Proofs.Resource.Search
