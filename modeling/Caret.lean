import Caret.Classes.Discovery
import Caret.Classes.Index
import Caret.Classes.Source
import Caret.CommandLine
import Caret.Completion.Assembly
import Caret.Completion.Binding
import Caret.Completion.Candidate
import Caret.Completion.Provider
import Caret.Completion.Query
import Caret.Completion.Ranking
import Caret.Editor.Buffer
import Caret.Editor.Session
import Caret.Editor.View
import Caret.Engine.Basic
import Caret.Engine.Client
import Caret.Engine.Project
import Caret.Fault
import Caret.Files.Archive
import Caret.Files.Error
import Caret.Files.Glob
import Caret.Files.Path
import Caret.Files.RealPath
import Caret.Files.Tree
import Caret.Imports.Insert
import Caret.Imports.Position
import Caret.Imports.Request
import Caret.Line.Block
import Caret.Line.Context
import Caret.Line.Expression
import Caret.Line.SearchPath
import Caret.Main
import Caret.Modules.Index
import Caret.Modules.LoadPath
import Caret.Modules.Name
import Caret.Modules.Scan
import Caret.Modules.Symbol
import Caret.Modules.Untyped
import Caret.Script.Expr
import Caret.Script.Field
import Caret.Script.Lexer
import Caret.Script.Literal
import Caret.Script.Name
import Caret.Script.Number
import Caret.Script.Outline
import Caret.Script.Parser.Basic
import Caret.Script.Parser.Expression
import Caret.Script.Parser.Pattern
import Caret.Script.Parser.Statement
import Caret.Script.Quotation
import Caret.Script.Statement
import Caret.Script.Token
import Caret.Service
import Caret.Settings.Normalize
import Caret.Settings.Path
import Caret.Settings.Store
import Caret.Text.Basic
import Caret.Text.Compatibility
import Caret.Text.Digit
import Caret.Text.Entries
import Caret.Text.Identifier
import Caret.Text.Integer
import Caret.Text.Line
import Caret.Text.LowerCase
import Caret.Text.Printable
import Caret.Text.Quoted
import Caret.Text.Space
import Caret.Text.Span
import Caret.Text.Utf8
import Caret.Text.WordChar
import Caret.Value.Basic
import Caret.Value.Binary64
import Caret.Value.Conversion
import Caret.Value.Display
import Caret.Value.Json
import Caret.Proofs.Line.Form
import Caret.Proofs.Completion.Kept
import Caret.Proofs.Classes.Source
import Caret.Proofs.Completion.Provider
import Caret.Proofs.Completion.Alignment
import Caret.Proofs.Text.Order
import Caret.Proofs.Completion.Ranking
import Caret.Proofs.Script.Agreement
import Caret.Proofs.Script.Lexeme
import Caret.Proofs.Script.Lexing
import Caret.Proofs.Script.Expression
import Caret.Proofs.Script.Pattern
import Caret.Proofs.Script.Simple
import Caret.Proofs.Script.Block
import Caret.Proofs.Script.Program
import Caret.Proofs.Script.Join
import Caret.Proofs.Script.Imported
import Caret.Proofs.Script.Further
import Caret.Proofs.Script.Spelling
import Caret.Proofs.Script.ImportLine
import Caret.Proofs.Script.Extend
import Caret.Proofs.Script.ExtendText
import Caret.Proofs.Text.Lines
import Caret.Proofs.Text.Parts
import Caret.Proofs.Imports.Request
import Caret.Proofs.Script.Breaks
import Caret.Proofs.Imports.Edit
import Caret.Proofs.Imports.Insertion
import Caret.Proofs.Imports.Site
import Caret.Proofs.Editor.Import
import Caret.Proofs.Editor.Caret
import Caret.Proofs.Imports.Preserve
import Caret.Proofs.Imports.InForce
import Caret.Proofs.Script.FirstLine
import Caret.Proofs.Imports.Future
import Caret.Proofs.Completion.Binding
import Caret.Proofs.Completion.Split
import Caret.Proofs.Line.Expression
import Caret.Proofs.Files.RealPath
import Caret.Proofs.Modules.LoadPath
import Caret.Proofs.Modules.Lookup
import Caret.Proofs.Completion.Isolation
import Caret.Proofs.Completion.Repeat
import Caret.Proofs.Files.Path
import Caret.Proofs.Files.Walk
import Caret.Proofs.Modules.Name
import Caret.Proofs.Modules.Scan
import Caret.Proofs.Modules.Resolve
import Caret.Proofs.Classes.Import
import Caret.Proofs.Value.Alike
import Caret.Proofs.Value.Ordered
import Caret.Proofs.Settings.Fill
import Caret.Proofs.Value.Written
import Caret.Proofs.Value.RoundTrip
import Caret.Proofs.Files.Write
import Caret.Proofs.Settings.Normalize
import Caret.Proofs.Settings.Path
import Caret.Proofs.Settings.Reload
import Caret.Proofs.Settings.ReadBack
import Caret.Proofs.Settings.Dirty
import Caret.Proofs.Settings.NormalForm
import Caret.Proofs.Service
import Caret.Proofs.CommandLine
import Caret.Proofs.Completion.Fresh
import Caret.Proofs.Line.Header
import Caret.Proofs.Line.Import
import Caret.Proofs.Line.Decision
import Caret.Proofs.Text.Sorted
import Caret.Proofs.Modules.Index
import Caret.Proofs.Classes.Index
import Caret.Proofs.Classes.ImportedName
import Caret.Proofs.Completion.Filter
import Caret.Proofs.Text.LowerCase
import Caret.Proofs.Imports.Place
import Caret.Proofs.Line.SearchPath
import Caret.Proofs.Modules.Exports
import Caret.Proofs.Modules.Importable
import Caret.Proofs.Files.Current
import Caret.Proofs.Modules.Membership
import Caret.Proofs.Engine.Project
