import ScimBridge.Backend.Client
import ScimBridge.Backend.Clock
import ScimBridge.Backend.Config
import ScimBridge.Backend.Error
import ScimBridge.Backend.Exchange
import ScimBridge.Backend.Objects
import ScimBridge.Calendar.Moment
import ScimBridge.Decimal.Double
import ScimBridge.Decimal.Shortest
import ScimBridge.Files
import ScimBridge.Filter.Basic
import ScimBridge.Filter.Comparison
import ScimBridge.Filter.Cursor
import ScimBridge.Filter.Literal
import ScimBridge.Filter.Parser
import ScimBridge.Filter.Rendering
import ScimBridge.Gateway.Access
import ScimBridge.Gateway.Answer
import ScimBridge.Gateway.Discovery
import ScimBridge.Gateway.Fault
import ScimBridge.Gateway.Forwarding
import ScimBridge.Gateway.Route
import ScimBridge.Gateway.Settings
import ScimBridge.Gateway.State
import ScimBridge.Http.Message
import ScimBridge.Http.Uri
import ScimBridge.Json.Defect
import ScimBridge.Json.Fields
import ScimBridge.Json.Reader
import ScimBridge.Json.Shape
import ScimBridge.Json.Shown
import ScimBridge.Json.Token
import ScimBridge.Json.Value
import ScimBridge.Json.Writer
import ScimBridge.Main
import ScimBridge.Mapping.Basic
import ScimBridge.Mapping.Document
import ScimBridge.Mapping.PathTable
import ScimBridge.Mapping.Source
import ScimBridge.Net.Address
import ScimBridge.Net.HostName
import ScimBridge.Patch.Basic
import ScimBridge.Patch.Converter
import ScimBridge.Patch.Fault
import ScimBridge.Patch.Target
import ScimBridge.Proofs.Backend.Bodies
import ScimBridge.Proofs.Backend.Exchange
import ScimBridge.Proofs.Backend.Requests
import ScimBridge.Proofs.Filter.Balance
import ScimBridge.Proofs.Filter.Comparison
import ScimBridge.Proofs.Filter.Composition
import ScimBridge.Proofs.Filter.Grammar
import ScimBridge.Proofs.Filter.Literal
import ScimBridge.Proofs.Filter.Opacity
import ScimBridge.Proofs.Filter.Query
import ScimBridge.Proofs.Filter.Replacement
import ScimBridge.Proofs.Filter.Search
import ScimBridge.Proofs.Filter.Sides
import ScimBridge.Proofs.Gateway.Bearer
import ScimBridge.Proofs.Gateway.Callers
import ScimBridge.Proofs.Json.Fields
import ScimBridge.Proofs.Mapping.Places
import ScimBridge.Proofs.Outcomes
import ScimBridge.Proofs.Patch.Entries
import ScimBridge.Proofs.Patch.Pointers
import ScimBridge.Proofs.Resource.Drafts
import ScimBridge.Proofs.Resource.Exposed
import ScimBridge.Proofs.Resource.Places
import ScimBridge.Proofs.Resource.Stored
import ScimBridge.Proofs.Schema.Compiled
import ScimBridge.Proofs.Schema.Runs
import ScimBridge.Proofs.Schema.Snapshot
import ScimBridge.Proofs.Service.Confinement
import ScimBridge.Proofs.Service.Requests
import ScimBridge.Proofs.Text.LowerCase
import ScimBridge.Proofs.Text.Trim
import ScimBridge.Resource.Common
import ScimBridge.Resource.Draft
import ScimBridge.Resource.Group
import ScimBridge.Resource.Path
import ScimBridge.Resource.User
import ScimBridge.Schema.Attribute
import ScimBridge.Schema.Cache
import ScimBridge.Schema.Characteristics
import ScimBridge.Schema.Compiler
import ScimBridge.Schema.Core
import ScimBridge.Schema.Document
import ScimBridge.Schema.Names
import ScimBridge.Schema.PropertyType
import ScimBridge.Schema.Source
import ScimBridge.SchemaTool.Arguments
import ScimBridge.SchemaTool.Command
import ScimBridge.Service.Call
import ScimBridge.Service.Error
import ScimBridge.Service.Paging
import ScimBridge.Service.Resources
import ScimBridge.Text.Blank
import ScimBridge.Text.Case
import ScimBridge.Text.CaseTables
import ScimBridge.Text.Classes
import ScimBridge.Text.CodePoint
import ScimBridge.Text.Encoding
import ScimBridge.Text.FoldTables
import ScimBridge.Text.Folded
import ScimBridge.Text.HiddenRuns
import ScimBridge.Text.Integer
import ScimBridge.Text.Lines
import ScimBridge.Text.Percent
import ScimBridge.Text.Punycode
import ScimBridge.Text.Split
import ScimBridge.Text.WordRuns
import ScimBridge.Worker
import ScimBridge.Yaml.BlockText
import ScimBridge.Yaml.MomentText
import ScimBridge.Yaml.Node
import ScimBridge.Yaml.Place
import ScimBridge.Yaml.PlainText
import ScimBridge.Yaml.QuotedText
import ScimBridge.Yaml.Reader
import ScimBridge.Yaml.Scalar
import ScimBridge.Yaml.Tag
import ScimBridge.Yaml.Token
import ScimBridge.Proofs.Resource.Begun
import ScimBridge.Proofs.Resource.Written
import ScimBridge.Proofs.Resource.Shown
import ScimBridge.Proofs.Resource.RoundTrip
import ScimBridge.Proofs.Patch.Requests
import ScimBridge.Proofs.Patch.Coverage
import ScimBridge.Proofs.Patch.Readback
import ScimBridge.Proofs.Resource.Binding
import ScimBridge.Proofs.Patch.Binding
import ScimBridge.Proofs.Patch.Membership
import ScimBridge.Proofs.Patch.Selected
import ScimBridge.Proofs.Resource.Members
import ScimBridge.Proofs.Resource.Names
import ScimBridge.Proofs.Schema.Declared
import ScimBridge.Proofs.Schema.Conformance
import ScimBridge.Proofs.Service.Characteristics
import ScimBridge.Proofs.Text.Cut
import ScimBridge.Proofs.Backend.Pairs
import ScimBridge.Proofs.Backend.Failures
import ScimBridge.Proofs.Backend.Server
import ScimBridge.Proofs.Resource.Shared
import ScimBridge.Proofs.Resource.Dependence
import ScimBridge.Proofs.Service.Reading
import ScimBridge.Proofs.Service.Failures
import ScimBridge.Proofs.Service.Paging
import ScimBridge.Proofs.Gateway.Versions
import ScimBridge.Proofs.Gateway.Resources
import ScimBridge.Proofs.Gateway.Clients
import ScimBridge.Proofs.Gateway.Updates
import ScimBridge.Proofs.Backend.Brief
import ScimBridge.Proofs.Service.Single
import ScimBridge.Proofs.Schema.Contents
import ScimBridge.Proofs.Http.Segments
import ScimBridge.Proofs.Service.Addresses
import ScimBridge.Proofs.Gateway.Forwarding
import ScimBridge.Proofs.Json.Reading
import ScimBridge.Proofs.Backend.Renewal
import ScimBridge.Proofs.Schema.Loading
import ScimBridge.Proofs.Gateway.Starting
import ScimBridge.Proofs.Filter.Longer
import ScimBridge.Proofs.Filter.Dangling
import ScimBridge.Proofs.Schema.Reordering
import ScimBridge.Proofs.Backend.Discipline
import ScimBridge.Proofs.Schema.Sources
import ScimBridge.Proofs.SchemaTool.Agreement
import ScimBridge.Proofs.Resource.Slots
import ScimBridge.Proofs.Patch.Whole
import ScimBridge.Proofs.Patch.Unknown
import ScimBridge.Proofs.Patch.Extension
import ScimBridge.Proofs.Patch.Qualified
import ScimBridge.Proofs.Backend.Lifetimes
import ScimBridge.Proofs.Backend.Transcript
import ScimBridge.Proofs.Mapping.Lookup
import ScimBridge.Proofs.Service.Totals
import ScimBridge.Proofs.Filter.Depth
import ScimBridge.Proofs.Filter.Operands
import ScimBridge.Proofs.Filter.Rereading
import ScimBridge.Proofs.Filter.Pieces
import ScimBridge.Proofs.Filter.Walk
import ScimBridge.Proofs.Filter.Fragments
import ScimBridge.Proofs.Filter.Flat
import ScimBridge.Proofs.Resource.Lens
import ScimBridge.Proofs.Filter.Writing
