import MdxCheck.CommandLine.Outline
import MdxCheck.Document.Session
import MdxCheck.Main
import MdxCheck.Proofs.Document.Nesting
import MdxCheck.Proofs.Document.RoundTrip
import MdxCheck.Proofs.Frontmatter.Block
import MdxCheck.Proofs.Rule.Placed
import MdxCheck.Proofs.Yaml.Load
import MdxCheck.Proofs.Markdown.Fences
import MdxCheck.Proofs.Markdown.Advance
import MdxCheck.Proofs.Markdown.Plain
import MdxCheck.Proofs.Markdown.Tidy
import MdxCheck.Proofs.Document.Code
import MdxCheck.Proofs.Rule.BarPages
import MdxCheck.Proofs.Document.AfterData
import MdxCheck.Proofs.Document.Indented
import MdxCheck.Proofs.Document.Session
import MdxCheck.Proofs.Image.Statements
import MdxCheck.Proofs.Verification.Composition
import MdxCheck.Proofs.CommandLine.Totals
import MdxCheck.Proofs.Verification.Discovery
import MdxCheck.Proofs.Config.Accepted
import MdxCheck.Proofs.Image.Unused
import MdxCheck.Proofs.Document.Rescan
import MdxCheck.Proofs.Tag.Body
import MdxCheck.Proofs.Tag.Tokens
import MdxCheck.Proofs.Tag.Items
import MdxCheck.Proofs.Tag.Literal
import MdxCheck.Proofs.Document.Passages
import MdxCheck.Proofs.Document.Partition
import MdxCheck.Proofs.Rule.Container
import MdxCheck.Proofs.Frontmatter.Freshness
import MdxCheck.Proofs.Rule.StrayProse
import MdxCheck.Proofs.Frontmatter.Body
import MdxCheck.Proofs.Document.Returns
import MdxCheck.Proofs.Document.Forest
import MdxCheck.Proofs.Frontmatter.Scope
