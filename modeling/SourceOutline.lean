import SourceOutline.Command.Basic
import SourceOutline.Command.Help
import SourceOutline.Command.Options
import SourceOutline.Command.Run
import SourceOutline.Display.Messages
import SourceOutline.Display.Style
import SourceOutline.Display.Table
import SourceOutline.Element.Basic
import SourceOutline.Element.Order
import SourceOutline.Element.Session
import SourceOutline.Fault
import SourceOutline.Files.Path
import SourceOutline.Files.Tree
import SourceOutline.Grammar.Derive
import SourceOutline.Grammar.NodeTypes
import SourceOutline.Grammar.Registry
import SourceOutline.Grammar.SlotTable
import SourceOutline.Grammar.Supertypes
import SourceOutline.Ignore.Filter
import SourceOutline.Ignore.Glob.Basic
import SourceOutline.Ignore.Glob.Match
import SourceOutline.Ignore.Glob.Parser
import SourceOutline.Ignore.Personal
import SourceOutline.Ignore.Rules
import SourceOutline.Ignore.Walk
import SourceOutline.Json.Basic
import SourceOutline.Json.Parser
import SourceOutline.Json.Printer
import SourceOutline.Json.Record
import SourceOutline.Keyed
import SourceOutline.Main
import SourceOutline.Metamodel.Basic
import SourceOutline.Metamodel.Codec
import SourceOutline.Metamodel.Entity
import SourceOutline.NameMap
import SourceOutline.NameSet
import SourceOutline.Node.Basic
import SourceOutline.Node.Graph
import SourceOutline.Node.Position
import SourceOutline.Outline.Basic
import SourceOutline.Outline.Codec
import SourceOutline.Outline.Descent
import SourceOutline.Outline.Level
import SourceOutline.Outline.Lines
import SourceOutline.Outline.Printer
import SourceOutline.Outline.Render
import SourceOutline.Proofs.Element.FirstFault
import SourceOutline.Proofs.Element.Lineage
import SourceOutline.Proofs.Element.Readable
import SourceOutline.Proofs.Element.Resolution
import SourceOutline.Proofs.Element.StableOrder
import SourceOutline.Proofs.Files.WriteRead
import SourceOutline.Proofs.Grammar.Agreement
import SourceOutline.Proofs.Grammar.ChildClaims
import SourceOutline.Proofs.Grammar.EntryOrder
import SourceOutline.Proofs.Grammar.Expansion
import SourceOutline.Proofs.Grammar.Features
import SourceOutline.Proofs.Grammar.FreeNames
import SourceOutline.Proofs.Grammar.Lookup
import SourceOutline.Proofs.Grammar.Narrowing
import SourceOutline.Proofs.Grammar.Partition
import SourceOutline.Proofs.Grammar.SlotInserts
import SourceOutline.Proofs.Json.Record
import SourceOutline.Proofs.Metamodel.EntityForms
import SourceOutline.Proofs.Metamodel.Registration
import SourceOutline.Proofs.Node.TokenEnd
import SourceOutline.Proofs.Outline.Count
import SourceOutline.Proofs.Outline.Faithful
import SourceOutline.Proofs.Outline.Plain
import SourceOutline.Proofs.Outline.Printers
import SourceOutline.Proofs.Outline.Recursion
import SourceOutline.Proofs.Outline.Truncation
import SourceOutline.Proofs.Outline.ValueLines
import SourceOutline.Proofs.Scan.Accounting
import SourceOutline.Proofs.Settings.Saving
import SourceOutline.Proofs.SyntaxTree.Answers
import SourceOutline.Proofs.SyntaxTree.Coverage
import SourceOutline.Proofs.SyntaxTree.Faults
import SourceOutline.Proofs.SyntaxTree.Places
import SourceOutline.Proofs.SyntaxTree.Positions
import SourceOutline.Proofs.SyntaxTree.SourceOrder
import SourceOutline.Proofs.SyntaxTree.Spans
import SourceOutline.Proofs.Text.Bytes
import SourceOutline.Proofs.Toml.Lines
import SourceOutline.Proofs.Toml.Numbers
import SourceOutline.Proofs.Toml.Strings
import SourceOutline.Scan.Report
import SourceOutline.Scan.Source
import SourceOutline.Scan.Supplies
import SourceOutline.Settings.Basic
import SourceOutline.Settings.Store
import SourceOutline.SyntaxTree.Basic
import SourceOutline.SyntaxTree.Codec
import SourceOutline.SyntaxTree.Node
import SourceOutline.Text.Bytes
import SourceOutline.Text.CharTable
import SourceOutline.Text.Printable
import SourceOutline.Text.Quoted
import SourceOutline.Text.Split
import SourceOutline.Text.Width
import SourceOutline.Toml.Format
import SourceOutline.Toml.Parser
import SourceOutline.Toml.Quoted
import SourceOutline.Toml.Scalar
import SourceOutline.Toml.Value
