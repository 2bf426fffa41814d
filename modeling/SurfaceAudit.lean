import SurfaceAudit.Calendar
import SurfaceAudit.CommandLine.Arguments
import SurfaceAudit.CommandLine.Switch
import SurfaceAudit.Config.Basic
import SurfaceAudit.Config.Load
import SurfaceAudit.Config.Merge
import SurfaceAudit.Config.Mode
import SurfaceAudit.Csv
import SurfaceAudit.Csv.Reader
import SurfaceAudit.Declaration
import SurfaceAudit.Discovery
import SurfaceAudit.Evidence
import SurfaceAudit.Fault
import SurfaceAudit.FileTree.Disk
import SurfaceAudit.FileTree.Node
import SurfaceAudit.FileTree.Path
import SurfaceAudit.Hooks
import SurfaceAudit.Impact
import SurfaceAudit.Json.Defect
import SurfaceAudit.Json.Reader
import SurfaceAudit.Json.Writer
import SurfaceAudit.Log
import SurfaceAudit.Main
import SurfaceAudit.Markdown.Commands
import SurfaceAudit.Markdown.Fence
import SurfaceAudit.Markdown.Frontmatter
import SurfaceAudit.Number.Binary64
import SurfaceAudit.Number.Reading
import SurfaceAudit.Number.Shortest
import SurfaceAudit.Pattern.Defect
import SurfaceAudit.Pattern.Match
import SurfaceAudit.Pattern.Names
import SurfaceAudit.Pattern.Parse
import SurfaceAudit.Pattern.Source
import SurfaceAudit.Pattern.Syntax
import SurfaceAudit.Plugin.Basic
import SurfaceAudit.Plugin.Contents
import SurfaceAudit.Plugin.Listing
import SurfaceAudit.Plugin.Manifest
import SurfaceAudit.Plugin.Note
import SurfaceAudit.Plugin.Parser
import SurfaceAudit.Program
import SurfaceAudit.Proofs.Accounts
import SurfaceAudit.Proofs.Agreement
import SurfaceAudit.Proofs.Arrangement
import SurfaceAudit.Proofs.BrokenManifests
import SurfaceAudit.Proofs.Chaining
import SurfaceAudit.Proofs.CommandLayers
import SurfaceAudit.Proofs.Decoding
import SurfaceAudit.Proofs.Defects
import SurfaceAudit.Proofs.Discipline
import SurfaceAudit.Proofs.DocumentParts
import SurfaceAudit.Proofs.Endings
import SurfaceAudit.Proofs.Exports
import SurfaceAudit.Proofs.Failure
import SurfaceAudit.Proofs.FileLists
import SurfaceAudit.Proofs.FirstSeen
import SurfaceAudit.Proofs.Formulas
import SurfaceAudit.Proofs.Gate
import SurfaceAudit.Proofs.Grades
import SurfaceAudit.Proofs.Growth
import SurfaceAudit.Proofs.HookShapes
import SurfaceAudit.Proofs.ImportLists
import SurfaceAudit.Proofs.JsonTexts
import SurfaceAudit.Proofs.JsonValues
import SurfaceAudit.Proofs.Layers
import SurfaceAudit.Proofs.LetterCase
import SurfaceAudit.Proofs.LineNumbers
import SurfaceAudit.Proofs.Lines
import SurfaceAudit.Proofs.LinkResolution
import SurfaceAudit.Proofs.Lookup
import SurfaceAudit.Proofs.Manifests
import SurfaceAudit.Proofs.Matching
import SurfaceAudit.Proofs.Merging
import SurfaceAudit.Proofs.NodeImports
import SurfaceAudit.Proofs.Outlines
import SurfaceAudit.Proofs.OutputPlaces
import SurfaceAudit.Proofs.PackageNames
import SurfaceAudit.Proofs.Places
import SurfaceAudit.Proofs.PlainPaths
import SurfaceAudit.Proofs.Pooling
import SurfaceAudit.Proofs.Presentation
import SurfaceAudit.Proofs.Priorities
import SurfaceAudit.Proofs.PythonImports
import SurfaceAudit.Proofs.Reading
import SurfaceAudit.Proofs.Repetition
import SurfaceAudit.Proofs.Resolution
import SurfaceAudit.Proofs.Restriction
import SurfaceAudit.Proofs.Roots
import SurfaceAudit.Proofs.RuleEntries
import SurfaceAudit.Proofs.RuleFiles
import SurfaceAudit.Proofs.RuleLoading
import SurfaceAudit.Proofs.RuleOrder
import SurfaceAudit.Proofs.Runs
import SurfaceAudit.Proofs.Scanners
import SurfaceAudit.Proofs.ScriptFiles
import SurfaceAudit.Proofs.Segments
import SurfaceAudit.Proofs.ServerShapes
import SurfaceAudit.Proofs.Settings
import SurfaceAudit.Proofs.ShellWords
import SurfaceAudit.Proofs.SoundRules
import SurfaceAudit.Proofs.Specifiers
import SurfaceAudit.Proofs.Steps
import SurfaceAudit.Proofs.StrayFaults
import SurfaceAudit.Proofs.Sweeps
import SurfaceAudit.Proofs.TableNames
import SurfaceAudit.Proofs.Tables
import SurfaceAudit.Proofs.Toggles
import SurfaceAudit.Proofs.Tolerance
import SurfaceAudit.Proofs.ToolLists
import SurfaceAudit.Proofs.Tree
import SurfaceAudit.Proofs.UnknownKeys
import SurfaceAudit.Proofs.Unseen
import SurfaceAudit.Proofs.Verdicts
import SurfaceAudit.Proofs.Walk
import SurfaceAudit.Proofs.Writing
import SurfaceAudit.Proofs.YamlFaults
import SurfaceAudit.Proofs.YamlValues
import SurfaceAudit.Rank
import SurfaceAudit.Report.Document
import SurfaceAudit.Report.Output
import SurfaceAudit.Report.Overview
import SurfaceAudit.Report.Table
import SurfaceAudit.Result
import SurfaceAudit.Rules.Bundled
import SurfaceAudit.Rules.Defect
import SurfaceAudit.Rules.Loader
import SurfaceAudit.Rules.Table
import SurfaceAudit.Scan.Analysis
import SurfaceAudit.Scan.Pool
import SurfaceAudit.Scan.Task
import SurfaceAudit.Script.Evidence
import SurfaceAudit.Script.Line
import SurfaceAudit.Script.Node
import SurfaceAudit.Script.Python
import SurfaceAudit.Servers
import SurfaceAudit.Text.Alphabet
import SurfaceAudit.Text.Base64
import SurfaceAudit.Text.Case
import SurfaceAudit.Text.Class
import SurfaceAudit.Text.Lines
import SurfaceAudit.Text.Point
import SurfaceAudit.Text.Quoted
import SurfaceAudit.Text.Table
import SurfaceAudit.Text.Utf8
import SurfaceAudit.Value.Basic
import SurfaceAudit.Value.Container
import SurfaceAudit.Value.Written
import SurfaceAudit.Verdict
import SurfaceAudit.Yaml.Document
import SurfaceAudit.Yaml.Node
import SurfaceAudit.Yaml.Scalar
import SurfaceAudit.Yaml.Timestamp
import SurfaceAudit.Yaml.Token
import SurfaceAudit.Yaml.Token.Scalar
import SurfaceAudit.Yaml.Token.Stream
