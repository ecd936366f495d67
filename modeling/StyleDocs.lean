import StyleDocs.CommandLine.Run
import StyleDocs.Main
import StyleDocs.Proofs.Build.Root
import StyleDocs.Proofs.Checkout
import StyleDocs.Proofs.Document.Section
import StyleDocs.Proofs.Document.Recovery
import StyleDocs.Proofs.Reference.Address
import StyleDocs.Proofs.Reference.Values
import StyleDocs.Proofs.Reference.Json
import StyleDocs.Proofs.Reference.Answers
import StyleDocs.Proofs.StaticTables.Search
import StyleDocs.StaticTables.Reader
import StyleDocs.Proofs.StaticTables.Token
import StyleDocs.Proofs.StaticTables.Source
import StyleDocs.Proofs.StaticTables.Denotation
import StyleDocs.Proofs.Document.LineEnd
import StyleDocs.Proofs.Build.Dependence
import StyleDocs.Proofs.Build.Reopen
import StyleDocs.Proofs.Build.Report
import StyleDocs.Proofs.CommandLine
import StyleDocs.Proofs.Reference.Tolerance
import StyleDocs.Proofs.Markdown.Block
import StyleDocs.Proofs.Markdown.Heading
import StyleDocs.Proofs.Markdown.Label
import StyleDocs.Proofs.Document.Grammar
import StyleDocs.Proofs.Markdown.Pairing
import StyleDocs.Proofs.Markdown.Span
import StyleDocs.Proofs.Markdown.RowExpression
import StyleDocs.Proofs.Markdown.Residue
import StyleDocs.Proofs.Reference.Spelling
import StyleDocs.Proofs.Reference.Listing
import StyleDocs.Proofs.Reference.FirstSeen
import StyleDocs.Proofs.Scan.Documents
import StyleDocs.Proofs.Markdown.Splitting
import StyleDocs.Proofs.Document.Clean
