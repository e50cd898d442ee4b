import EntityForge.Artifact.Basic
import EntityForge.Artifact.Export
import EntityForge.Artifact.Manifest
import EntityForge.Artifact.Session
import EntityForge.Attribute.Command
import EntityForge.Attribute.Entity
import EntityForge.Attribute.Field
import EntityForge.Attribute.Scalar
import EntityForge.Build.Basic
import EntityForge.Build.Reference
import EntityForge.Build.Shape
import EntityForge.CommandLine.Arguments
import EntityForge.CommandLine.Help
import EntityForge.CommandLine.Run
import EntityForge.Diagnostic
import EntityForge.Digest.Sha256
import EntityForge.Disk.Basic
import EntityForge.Disk.Path
import EntityForge.Disk.Replace
import EntityForge.Document.Declaration
import EntityForge.Document.Load
import EntityForge.Document.Read
import EntityForge.Document.Written
import EntityForge.Entity.Basic
import EntityForge.Entity.Check
import EntityForge.Entity.Command
import EntityForge.Entity.Field
import EntityForge.Entity.Relation
import EntityForge.Entity.Vocabulary
import EntityForge.FieldType.Basic
import EntityForge.FieldType.Column
import EntityForge.FieldType.Hint
import EntityForge.FieldType.Parse
import EntityForge.Generation.Report
import EntityForge.Generation.Run
import EntityForge.Identifier.Uuid
import EntityForge.Json.Fault
import EntityForge.Json.Read
import EntityForge.Json.Write
import EntityForge.Main
import EntityForge.Notification.Connection
import EntityForge.Notification.Subscriber
import EntityForge.Number.Binary64
import EntityForge.Number.Read
import EntityForge.Number.Shortest
import EntityForge.Package.Backend
import EntityForge.Package.Commands
import EntityForge.Package.Events
import EntityForge.Package.Files
import EntityForge.Package.Filter
import EntityForge.Package.Guard
import EntityForge.Package.Hooks
import EntityForge.Package.Model
import EntityForge.Package.Names
import EntityForge.Package.Repository
import EntityForge.Package.Shape
import EntityForge.Package.Streams
import EntityForge.Package.Transactions
import EntityForge.Package.Transfer
import EntityForge.Policy.Failure
import EntityForge.Policy.Operation
import EntityForge.Postgres.Migration
import EntityForge.Postgres.Statement
import EntityForge.Proofs.Answer
import EntityForge.Proofs.ArtifactPath
import EntityForge.Proofs.Attribute
import EntityForge.Proofs.Attribution
import EntityForge.Proofs.Backend
import EntityForge.Proofs.Binding
import EntityForge.Proofs.Build
import EntityForge.Proofs.Channel
import EntityForge.Proofs.ClassName
import EntityForge.Proofs.Cleaning
import EntityForge.Proofs.ColumnList
import EntityForge.Proofs.CommandOption
import EntityForge.Proofs.Composition
import EntityForge.Proofs.Configuration
import EntityForge.Proofs.Confinement
import EntityForge.Proofs.Construction
import EntityForge.Proofs.Creation
import EntityForge.Proofs.Dangling
import EntityForge.Proofs.Delivery
import EntityForge.Proofs.Disk
import EntityForge.Proofs.Docstring
import EntityForge.Proofs.Document
import EntityForge.Proofs.Export
import EntityForge.Proofs.Exposure
import EntityForge.Proofs.FilterName
import EntityForge.Proofs.Finding
import EntityForge.Proofs.FindingCode
import EntityForge.Proofs.Generation
import EntityForge.Proofs.Guard
import EntityForge.Proofs.Handler
import EntityForge.Proofs.Identifier
import EntityForge.Proofs.IdentifierFinding
import EntityForge.Proofs.Import
import EntityForge.Proofs.ImportBlock
import EntityForge.Proofs.ImportLine
import EntityForge.Proofs.Importable
import EntityForge.Proofs.Importing
import EntityForge.Proofs.IndexName
import EntityForge.Proofs.InnerPath
import EntityForge.Proofs.Isolation
import EntityForge.Proofs.Like
import EntityForge.Proofs.Linking
import EntityForge.Proofs.Listing
import EntityForge.Proofs.Literal
import EntityForge.Proofs.Lookup
import EntityForge.Proofs.MadeName
import EntityForge.Proofs.Name
import EntityForge.Proofs.Nesting
import EntityForge.Proofs.Notification
import EntityForge.Proofs.Nullability
import EntityForge.Proofs.Origin
import EntityForge.Proofs.Passage
import EntityForge.Proofs.Placeholder
import EntityForge.Proofs.Precedence
import EntityForge.Proofs.Provision
import EntityForge.Proofs.Reading
import EntityForge.Proofs.Record
import EntityForge.Proofs.Reference
import EntityForge.Proofs.Relation
import EntityForge.Proofs.Repetition
import EntityForge.Proofs.Replacement
import EntityForge.Proofs.Rerun
import EntityForge.Proofs.Resolution
import EntityForge.Proofs.Run
import EntityForge.Proofs.Selection
import EntityForge.Proofs.Separation
import EntityForge.Proofs.SnakeCase
import EntityForge.Proofs.Split
import EntityForge.Proofs.Statement
import EntityForge.Proofs.Storing
import EntityForge.Proofs.Strictness
import EntityForge.Proofs.Substitution
import EntityForge.Proofs.Transaction
import EntityForge.Proofs.Update
import EntityForge.Proofs.Uuid
import EntityForge.Proofs.Validation
import EntityForge.Proofs.Wrapping
import EntityForge.Raised
import EntityForge.Schema.Check
import EntityForge.Schema.Violation
import EntityForge.Source.Code
import EntityForge.Source.Docstring
import EntityForge.Source.Imports
import EntityForge.Source.Keyword
import EntityForge.Source.Literal
import EntityForge.Sql.Layout
import EntityForge.Sql.Like
import EntityForge.Sql.Places
import EntityForge.Sql.Query
import EntityForge.Sql.Status
import EntityForge.Sql.Template
import EntityForge.Text.Base64
import EntityForge.Text.Blank
import EntityForge.Text.Count
import EntityForge.Text.Digit
import EntityForge.Text.Letters
import EntityForge.Text.Name
import EntityForge.Text.Plural
import EntityForge.Text.Printable
import EntityForge.Text.Quoted
import EntityForge.Text.Replace
import EntityForge.Text.Snake
import EntityForge.Text.Utf8
import EntityForge.Transaction.Block
import EntityForge.Validation.Document
import EntityForge.Validation.Entity
import EntityForge.Validation.Reserved
import EntityForge.Value.Basic
import EntityForge.Value.Calendar
import EntityForge.Value.Record
import EntityForge.Value.Show
import EntityForge.Yaml.Construct
import EntityForge.Yaml.Cursor
import EntityForge.Yaml.Node
import EntityForge.Yaml.Scalar
import EntityForge.Yaml.Tag
import EntityForge.Yaml.Token
