import RouteScribe.Assoc
import RouteScribe.CommandLine.Commands
import RouteScribe.CommandLine.Help
import RouteScribe.CommandLine.Option
import RouteScribe.CommandLine.Run
import RouteScribe.CommandLine.Scope
import RouteScribe.Console.Log
import RouteScribe.Console.Style
import RouteScribe.Files.Disk
import RouteScribe.Files.Path
import RouteScribe.Generation.Options
import RouteScribe.Generation.Pipeline
import RouteScribe.Json.Basic
import RouteScribe.Json.Printer
import RouteScribe.Json.Reader
import RouteScribe.Limits
import RouteScribe.Main
import RouteScribe.Number.Basic
import RouteScribe.Number.Binary64
import RouteScribe.Number.Shortest
import RouteScribe.OpenApi.Assemble
import RouteScribe.OpenApi.Basic
import RouteScribe.OpenApi.Check
import RouteScribe.OpenApi.Dump
import RouteScribe.OpenApi.Fault
import RouteScribe.OpenApi.Page
import RouteScribe.OpenApi.Render
import RouteScribe.OpenApi.Write
import RouteScribe.Pool.Basic
import RouteScribe.Pool.Run
import RouteScribe.Pool.Script
import RouteScribe.Pool.Total
import RouteScribe.Proofs.Assoc
import RouteScribe.Proofs.CommandLine.DryRun
import RouteScribe.Proofs.CommandLine.Rows
import RouteScribe.Proofs.Files.Reading
import RouteScribe.Proofs.Files.Resolve
import RouteScribe.Proofs.Files.Tree
import RouteScribe.Proofs.Files.Writing
import RouteScribe.Proofs.Generation.Outcome
import RouteScribe.Proofs.Pool.Conservation
import RouteScribe.Proofs.Pool.Session
import RouteScribe.Proofs.Pool.Slots
import RouteScribe.Proofs.Routes.Discovery
import RouteScribe.Proofs.Routes.Methods
import RouteScribe.Proofs.Survey.Claims
import RouteScribe.Proofs.Survey.Faithful
import RouteScribe.Proofs.Survey.FileScript
import RouteScribe.Proofs.Survey.Result
import RouteScribe.Proofs.Survey.Sequential
import RouteScribe.Proofs.Text.Case
import RouteScribe.Providers.Describe
import RouteScribe.Providers.Exchange
import RouteScribe.Providers.Model
import RouteScribe.Providers.Prompt
import RouteScribe.Providers.Registry
import RouteScribe.Providers.Setup
import RouteScribe.Reply
import RouteScribe.Routes.ApiPath
import RouteScribe.Routes.Discovery
import RouteScribe.Routes.Handler
import RouteScribe.Routes.Method
import RouteScribe.Settings.EnvFile
import RouteScribe.Settings.Environment
import RouteScribe.Settings.Servers
import RouteScribe.Survey.Basic
import RouteScribe.Survey.Claim
import RouteScribe.Survey.FileScript
import RouteScribe.Survey.Run
import RouteScribe.Text.Blank
import RouteScribe.Text.Case
import RouteScribe.Text.Case.Table
import RouteScribe.Text.CodePoint
import RouteScribe.Text.Digit
import RouteScribe.Text.Encode
import RouteScribe.Text.Order
import RouteScribe.Text.Printable
import RouteScribe.Text.Quoted
import RouteScribe.Text.Similar
import RouteScribe.Text.Span
import RouteScribe.Text.Split
import RouteScribe.Text.Utf8
import RouteScribe.Text.Word
import RouteScribe.Yaml.Implied
import RouteScribe.Yaml.Pen
import RouteScribe.Yaml.Printer
import RouteScribe.Yaml.Scalar
import RouteScribe.Proofs.Generation.TwoRuns
import RouteScribe.Proofs.Text.Replace
import RouteScribe.Proofs.Json.Value
import RouteScribe.Proofs.Json.Numerals
import RouteScribe.Proofs.OpenApi.Document
import RouteScribe.Proofs.Json.Grammar
import RouteScribe.Proofs.Json.Reading
import RouteScribe.Proofs.Json.Guarded
import RouteScribe.Proofs.Json.Writing
import RouteScribe.Proofs.OpenApi.Page
import RouteScribe.Proofs.Json.Distinct
import RouteScribe.Proofs.OpenApi.Check
import RouteScribe.Proofs.OpenApi.Render
import RouteScribe.Proofs.Html.ScriptData
import RouteScribe.Proofs.OpenApi.Script
import RouteScribe.Proofs.Files.Faults
import RouteScribe.Proofs.OpenApi.Storing
import RouteScribe.Proofs.Generation.Failure
import RouteScribe.Proofs.CommandLine.Crash
import RouteScribe.Proofs.Pool.Accounts
import RouteScribe.Proofs.Pool.Fair
import RouteScribe.Proofs.Survey.Timing
import RouteScribe.Proofs.Survey.InFlight
import RouteScribe.Proofs.Pool.SingleSlot
import RouteScribe.Proofs.Survey.Requests
import RouteScribe.Proofs.Survey.SingleSlot
import RouteScribe.Proofs.Json.Front
import RouteScribe.Proofs.Reply.Block
import RouteScribe.Proofs.Reply.Part
import RouteScribe.Proofs.Settings.Loading
import RouteScribe.Proofs.CommandLine.Choice
import RouteScribe.Proofs.OpenApi.FullDump
import RouteScribe.Proofs.Reply.Kept
import RouteScribe.Proofs.Routes.Exports
import RouteScribe.Proofs.Routes.Cut
import RouteScribe.Proofs.Routes.Clear
import RouteScribe.Proofs.Routes.Conventional
import RouteScribe.Proofs.Json.Excess
import RouteScribe.Proofs.Reply.Refused
import RouteScribe.Proofs.Text.Spelling
import RouteScribe.Proofs.Routes.ExportForm
import RouteScribe.Proofs.Generation.MethodKeys
import RouteScribe.Proofs.Routes.HandlerForm
import RouteScribe.Proofs.Routes.Segments
import RouteScribe.Proofs.Routes.NormalForm
import RouteScribe.Proofs.Routes.Searching
import RouteScribe.Proofs.Routes.Selection
import RouteScribe.Proofs.Routes.OwnPattern
import RouteScribe.Proofs.Providers.Setup
import RouteScribe.Proofs.Providers.History
import RouteScribe.Proofs.Pool.Completion
import RouteScribe.Proofs.Routes.Locating
import RouteScribe.Proofs.Survey.OneOwner
import RouteScribe.Proofs.Lists
import RouteScribe.Proofs.Files.Names
import RouteScribe.Proofs.Files.Straight
import RouteScribe.Proofs.OpenApi.AllOrNothing
import RouteScribe.Proofs.OpenApi.Stable
import RouteScribe.Proofs.OpenApi.Reload
import RouteScribe.Proofs.Text.Order
import RouteScribe.Proofs.Text.Trim
import RouteScribe.Proofs.Settings.Servers
import RouteScribe.Proofs.Console.Plain
import RouteScribe.Proofs.Console.Layout
import RouteScribe.Proofs.Console.Table
