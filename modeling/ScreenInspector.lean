import ScreenInspector.CommandLine.Arguments
import ScreenInspector.CommandLine.CommandError
import ScreenInspector.CommandLine.Coordinates
import ScreenInspector.CommandLine.Invocation
import ScreenInspector.CommandLine.Output
import ScreenInspector.CommandLine.Run
import ScreenInspector.CommandLine.Session
import ScreenInspector.CommandLine.SessionLine
import ScreenInspector.CommandLine.Settings
import ScreenInspector.CommandLine.SnapshotCommands
import ScreenInspector.Device.Configuration
import ScreenInspector.Device.ConfigurationFault
import ScreenInspector.Device.ConfigurationText
import ScreenInspector.Device.Connection
import ScreenInspector.Device.ImageSize
import ScreenInspector.Device.Playback
import ScreenInspector.Device.Screenshot
import ScreenInspector.Expression.Axis
import ScreenInspector.Expression.Evaluation
import ScreenInspector.Expression.Expr
import ScreenInspector.Expression.Fault
import ScreenInspector.Expression.Grammar
import ScreenInspector.Expression.Lexer
import ScreenInspector.Expression.Token
import ScreenInspector.Expression.Value
import ScreenInspector.Image.Bytes
import ScreenInspector.Image.Jpeg
import ScreenInspector.Image.Png
import ScreenInspector.Inspection.Details
import ScreenInspector.Inspection.Event
import ScreenInspector.Inspection.Inspector
import ScreenInspector.Inspection.Update
import ScreenInspector.InspectionError
import ScreenInspector.Json.Printer
import ScreenInspector.Json.Reader
import ScreenInspector.Json.Value
import ScreenInspector.Locator.Evaluator
import ScreenInspector.Locator.Synthesis
import ScreenInspector.Main
import ScreenInspector.Markup.Chars
import ScreenInspector.Markup.Content
import ScreenInspector.Markup.Document
import ScreenInspector.Markup.Fault
import ScreenInspector.Markup.Token
import ScreenInspector.Markup.Tree
import ScreenInspector.Number.Binary64
import ScreenInspector.Number.Reading
import ScreenInspector.Number.Shortest
import ScreenInspector.Proofs.AcceptedPayloads
import ScreenInspector.Proofs.AnsweredRuns
import ScreenInspector.Proofs.AttributeText
import ScreenInspector.Proofs.Axes
import ScreenInspector.Proofs.BlankSeparation
import ScreenInspector.Proofs.ClickwiseRecording
import ScreenInspector.Proofs.DescendantPaths
import ScreenInspector.Proofs.DeviceEndpoints
import ScreenInspector.Proofs.DocumentPartition
import ScreenInspector.Proofs.DocumentStructure
import ScreenInspector.Proofs.ExpressionGrammar
import ScreenInspector.Proofs.ExpressionLayers
import ScreenInspector.Proofs.ExpressionText
import ScreenInspector.Proofs.ExpressionVerdicts
import ScreenInspector.Proofs.FailedRefreshes
import ScreenInspector.Proofs.GrammarRecognition
import ScreenInspector.Proofs.GroupedExpressions
import ScreenInspector.Proofs.HitTesting
import ScreenInspector.Proofs.InspectionTurns
import ScreenInspector.Proofs.InspectorStates
import ScreenInspector.Proofs.LargeNumbers
import ScreenInspector.Proofs.LegalTexts
import ScreenInspector.Proofs.ListedTargets
import ScreenInspector.Proofs.LocationPaths
import ScreenInspector.Proofs.LocatorCompleteness
import ScreenInspector.Proofs.LocatorSearch
import ScreenInspector.Proofs.LocatorSyntax
import ScreenInspector.Proofs.LocatorValidity
import ScreenInspector.Proofs.LockedPointing
import ScreenInspector.Proofs.MirroredComparisons
import ScreenInspector.Proofs.NeededParts
import ScreenInspector.Proofs.NestingDepth
import ScreenInspector.Proofs.NodeLists
import ScreenInspector.Proofs.NodePaths
import ScreenInspector.Proofs.NodeSets
import ScreenInspector.Proofs.NumberOrder
import ScreenInspector.Proofs.NumberTexts
import ScreenInspector.Proofs.OfflineRecording
import ScreenInspector.Proofs.OpenBrackets
import ScreenInspector.Proofs.OrderlySteps
import ScreenInspector.Proofs.Outcomes
import ScreenInspector.Proofs.OverlappingClicks
import ScreenInspector.Proofs.ParsedExpressions
import ScreenInspector.Proofs.ParserExtension
import ScreenInspector.Proofs.PayloadFormats
import ScreenInspector.Proofs.PlaceFreePredicates
import ScreenInspector.Proofs.QueryableTrees
import ScreenInspector.Proofs.Recognition
import ScreenInspector.Proofs.RecorderStages
import ScreenInspector.Proofs.RecordingRuns
import ScreenInspector.Proofs.RecursiveTraversals
import ScreenInspector.Proofs.ReferenceIndex
import ScreenInspector.Proofs.RereadValues
import ScreenInspector.Proofs.ScriptLines
import ScreenInspector.Proofs.ScriptReading
import ScreenInspector.Proofs.SelectedNodes
import ScreenInspector.Proofs.Selection
import ScreenInspector.Proofs.SessionLines
import ScreenInspector.Proofs.SnapshotTexts
import ScreenInspector.Proofs.SourceQueries
import ScreenInspector.Proofs.SourceReading
import ScreenInspector.Proofs.SourceStructure
import ScreenInspector.Proofs.SourceValues
import ScreenInspector.Proofs.StableTags
import ScreenInspector.Proofs.StepRecognition
import ScreenInspector.Proofs.Tags
import ScreenInspector.Proofs.TokenComposition
import ScreenInspector.Proofs.Traversal
import ScreenInspector.Proofs.TruthfulUpdates
import ScreenInspector.Proofs.UnitScale
import ScreenInspector.Proofs.ValueKinds
import ScreenInspector.Proofs.ValueTexts
import ScreenInspector.Proofs.WholeClicks
import ScreenInspector.Proofs.WholeNumbers
import ScreenInspector.Recording.Offline
import ScreenInspector.Recording.Recorder
import ScreenInspector.Recording.Script
import ScreenInspector.Recording.Step
import ScreenInspector.Screen.Element
import ScreenInspector.Screen.Geometry
import ScreenInspector.Screen.HitTest
import ScreenInspector.Screen.Malformation
import ScreenInspector.Screen.Node
import ScreenInspector.Screen.Payload
import ScreenInspector.Screen.SourceText
import ScreenInspector.Screen.Tree
import ScreenInspector.Text.CharClass
import ScreenInspector.Text.CharTables
import ScreenInspector.Text.Fields
import ScreenInspector.Text.Quoted
import ScreenInspector.Yaml.Cursor
import ScreenInspector.Yaml.Fault
import ScreenInspector.Yaml.Node
import ScreenInspector.Yaml.PlainValue
import ScreenInspector.Yaml.Printer
import ScreenInspector.Yaml.ScalarText
import ScreenInspector.Yaml.Token
