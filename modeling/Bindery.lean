import Bindery.Text.Blank
import Bindery.Text.Upper
import Bindery.Text.Literal
import Bindery.ForeignType
import Bindery.Catalog.Error
import Bindery.Catalog.Parameters
import Bindery.Catalog.NameMap
import Bindery.Catalog.Functions
import Bindery.Json.Token
import Bindery.Json.Value
import Bindery.Json.Shape
import Bindery.Catalog.Document
import Bindery.Wrapper.Fault
import Bindery.Wrapper.ArgumentTable
import Bindery.Wrapper.Signature
import Bindery.Wrapper.Body
import Bindery.Unit.Constants
import Bindery.Unit.SelfTest
import Bindery.Unit.Assembly
import Bindery.Unit.TestBody
import Bindery.Source.Layout
import Bindery.Source.Attribute
import Bindery.Source.Wrapper
import Bindery.Source.SelfTest
import Bindery.Source.Unit
import Bindery.Source.ModuleIndex
import Bindery.Text.Replace
import Bindery.Project.PathTemplate
import Bindery.Header.Definitions
import Bindery.Header.Check
import Bindery.Files.Path
import Bindery.Files.Tree
import Bindery.Files.Program
import Bindery.Text.Digits
import Bindery.Toml.Text
import Bindery.Toml.Scalar
import Bindery.Toml.Table
import Bindery.Toml.Document
import Bindery.Toml.Shape
import Bindery.Header.Location
import Bindery.Project.Manifest
import Bindery.Project.Starter
import Bindery.Project.Failure
import Bindery.Project.Loading
import Bindery.Project.Scaffold
import Bindery.Project.Generation
import Bindery.Project.References
import Bindery.Project.IndexFile
import Bindery.CommandLine
import Bindery.Main
import Bindery.Proofs.Checks
import Bindery.Proofs.Keys
import Bindery.Proofs.Text.Blank
import Bindery.Proofs.Catalog.Entries
import Bindery.Proofs.Catalog.Accepted
import Bindery.Proofs.Wrapper.Table
import Bindery.Proofs.Wrapper.Acceptance
import Bindery.Proofs.Wrapper.Storage
import Bindery.Proofs.Wrapper.Signature
import Bindery.Proofs.Wrapper.CallTyping
import Bindery.Proofs.Wrapper.Execution
import Bindery.Proofs.Wrapper.Results
import Bindery.Proofs.Unit.Drafts
import Bindery.Proofs.Unit.Calls
import Bindery.Proofs.Unit.Success
import Bindery.Proofs.Unit.Order
import Bindery.Proofs.Catalog.Variants
import Bindery.Proofs.Unit.Modules
import Bindery.Proofs.Files.Locations
import Bindery.Proofs.Files.Programs
import Bindery.Proofs.Project.Loading
import Bindery.Proofs.Project.Writing
import Bindery.Proofs.Project.Generation
import Bindery.Proofs.Source.FirstLine
import Bindery.Proofs.Files.Ancestors
import Bindery.Proofs.Project.Checking
import Bindery.Proofs.Catalog.Symbols
import Bindery.Proofs.Text.Digits
import Bindery.Proofs.Text.Literal
import Bindery.Proofs.Project.Index
import Bindery.Proofs.Text.Words
import Bindery.Proofs.Catalog.TypeGrammar
import Bindery.Proofs.Catalog.Types
import Bindery.Proofs.Source.Declarations
import Bindery.Proofs.Project.Staleness
import Bindery.Proofs.Catalog.NameMaps
import Bindery.Proofs.Text.Lines
import Bindery.Proofs.Header.Definitions
import Bindery.Proofs.Header.Integers
import Bindery.Proofs.Header.Comments
import Bindery.Proofs.Header.Continuations
import Bindery.Proofs.Header.Agreement
import Bindery.Proofs.Project.References
import Bindery.Proofs.Unit.SelfTests
import Bindery.Proofs.Catalog.Acceptance
import Bindery.Proofs.Header.DefinitionLines
import Bindery.Proofs.Header.Listed
import Bindery.Proofs.Unit.TestScopes
import Bindery.Proofs.Wrapper.Roles
import Bindery.Proofs.Wrapper.Bindings
import Bindery.Proofs.Unit.Conflicts
import Bindery.Proofs.Unit.Casts
import Bindery.Proofs.Unit.OutputOrder
import Bindery.Proofs.Unit.TypeTexts
import Bindery.Proofs.Text.ByteLiteral
import Bindery.Proofs.Source.Messages
import Bindery.Proofs.Source.Layouts
import Bindery.Proofs.Text.Replace
import Bindery.Proofs.Project.PathTemplate
import Bindery.Proofs.Unit.Imports
import Bindery.Proofs.Source.ResultName
import Bindery.Proofs.Source.Descriptions
import Bindery.Proofs.Project.Starting
