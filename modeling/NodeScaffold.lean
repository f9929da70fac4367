import NodeScaffold.Text.Basic
import NodeScaffold.Text.Alphanumeric
import NodeScaffold.Text.Blank
import NodeScaffold.Text.Capital
import NodeScaffold.Text.Printable
import NodeScaffold.Text.Quoted
import NodeScaffold.Line
import NodeScaffold.Token.Basic
import NodeScaffold.Token.Dump
import NodeScaffold.Token.Lexer
import NodeScaffold.Conventions
import NodeScaffold.Node.Basic
import NodeScaffold.Node.Catalog
import NodeScaffold.Node.Dump
import NodeScaffold.Declaration.FieldLine
import NodeScaffold.Declaration.Header
import NodeScaffold.Reader.Mode
import NodeScaffold.Reader.Reading
import NodeScaffold.Reader.Step
import NodeScaffold.Code.Arms
import NodeScaffold.Code.Block
import NodeScaffold.Code.Construction
import NodeScaffold.Code.TokenSearch
import NodeScaffold.Document.Basic
import NodeScaffold.Document.Artifact
import NodeScaffold.Document.Fragments
import NodeScaffold.Document.Frame
import NodeScaffold.Pattern.Basic
import NodeScaffold.Pattern.Escape
import NodeScaffold.Pattern.Mode
import NodeScaffold.Pattern.Reader
import NodeScaffold.Pattern.Set
import NodeScaffold.Log.Event
import NodeScaffold.Log.Filter
import NodeScaffold.Log.Findings
import NodeScaffold.Files.Path
import NodeScaffold.Files.Tree
import NodeScaffold.Command.Delivery
import NodeScaffold.Command.Host
import NodeScaffold.Command.Request
import NodeScaffold.Command.Run
import NodeScaffold.Main
import NodeScaffold.Proofs.Texts
import NodeScaffold.Proofs.Lexing
import NodeScaffold.Proofs.Recognition
import NodeScaffold.Proofs.Runs
import NodeScaffold.Proofs.Writing
import NodeScaffold.Proofs.WrittenLines
import NodeScaffold.Proofs.RoundTrip
import NodeScaffold.Proofs.Origin
import NodeScaffold.Proofs.Emission
import NodeScaffold.Proofs.ReaderInvariant
import NodeScaffold.Proofs.CodeLines
import NodeScaffold.Proofs.Substitution
import NodeScaffold.Proofs.Splice
import NodeScaffold.Proofs.ArmAgreement
import NodeScaffold.Proofs.Numbering
import NodeScaffold.Proofs.Sections
import NodeScaffold.Proofs.Concatenation
import NodeScaffold.Proofs.Layout
import NodeScaffold.Proofs.Cuts
import NodeScaffold.Proofs.Statements
import NodeScaffold.Proofs.HeaderBody
import NodeScaffold.Proofs.CaseLines
import NodeScaffold.Proofs.Stamps
import NodeScaffold.Proofs.Coverage
import NodeScaffold.Proofs.Delimiters
import NodeScaffold.Proofs.Passages
import NodeScaffold.Proofs.TagBlocks
import NodeScaffold.Proofs.StatementGroups
import NodeScaffold.Proofs.SharedLines
import NodeScaffold.Proofs.Traces
import NodeScaffold.Proofs.BodyMoments
import NodeScaffold.Proofs.TokenRules
import NodeScaffold.Proofs.TokenSpans
import NodeScaffold.Proofs.DelimitedSpans
import NodeScaffold.Proofs.FieldLines
import NodeScaffold.Proofs.HeaderGrammar
import NodeScaffold.Proofs.SourcePlaces
import NodeScaffold.Proofs.LogTruth
import NodeScaffold.Proofs.BuilderSlots
import NodeScaffold.Proofs.Nesting
import NodeScaffold.Proofs.NestedCode
import NodeScaffold.Proofs.NestedDocuments
import NodeScaffold.Proofs.FileTrees
import NodeScaffold.Proofs.Effects
import NodeScaffold.Proofs.Deliveries
import NodeScaffold.Proofs.CommandLines
import NodeScaffold.Proofs.CommandRuns
import NodeScaffold.Proofs.CommandEffects
import NodeScaffold.Proofs.WriteCheck
import NodeScaffold.Proofs.Cleaning
import NodeScaffold.Proofs.CatalogIndex
import NodeScaffold.Proofs.CallStack
import NodeScaffold.Proofs.EmptyTags
import NodeScaffold.Proofs.Signs
import NodeScaffold.Proofs.Spacing
import NodeScaffold.Proofs.CheckMeaning
import NodeScaffold.Proofs.TokenBoundaries
