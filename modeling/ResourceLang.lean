import ResourceLang.Binding.Program
import ResourceLang.Binding.Resolution
import ResourceLang.Binding.Settings
import ResourceLang.Catalog.Basic
import ResourceLang.Catalog.Cache
import ResourceLang.Decorator.Basic
import ResourceLang.Decorator.Evaluation
import ResourceLang.Decorator.Registry
import ResourceLang.Decorator.Signature
import ResourceLang.Decorator.Standard
import ResourceLang.Diagnostic
import ResourceLang.Error
import ResourceLang.FlagSet
import ResourceLang.Keyed
import ResourceLang.Proofs.Agreement
import ResourceLang.Proofs.Ascending
import ResourceLang.Proofs.Binding.Equality
import ResourceLang.Proofs.Binding.ErrorCount
import ResourceLang.Proofs.Binding.Positions
import ResourceLang.Proofs.Binding.Resolution
import ResourceLang.Proofs.Binding.Schedules
import ResourceLang.Proofs.Binding.WellFormed
import ResourceLang.Proofs.Cache.Inquiries
import ResourceLang.Proofs.Cache.Safety
import ResourceLang.Proofs.Cache.Spelling
import ResourceLang.Proofs.Catalog
import ResourceLang.Proofs.Catalog.Registrations
import ResourceLang.Proofs.Decorator.Applications
import ResourceLang.Proofs.Decorator.Edits
import ResourceLang.Proofs.Decorator.Reordering
import ResourceLang.Proofs.Decorator.Secrecy
import ResourceLang.Proofs.FirstSeen
import ResourceLang.Proofs.Keyed
import ResourceLang.Proofs.Reference.Case
import ResourceLang.Proofs.Reference.Grammar
import ResourceLang.Proofs.Reference.Pattern
import ResourceLang.Proofs.Reference.Text
import ResourceLang.Proofs.Syntax.Commas
import ResourceLang.Proofs.Syntax.Order
import ResourceLang.Proofs.Syntax.Pieces
import ResourceLang.Proofs.Syntax.Placement
import ResourceLang.Proofs.Syntax.Shape
import ResourceLang.Proofs.Syntax.Strings
import ResourceLang.Proofs.Syntax.Tiling
import ResourceLang.Proofs.Text.Bytes
import ResourceLang.Proofs.Text.Case
import ResourceLang.Proofs.Ty.Acceptance
import ResourceLang.Proofs.Ty.Canonical
import ResourceLang.Proofs.Ty.Checked
import ResourceLang.Proofs.Ty.Comparison
import ResourceLang.Proofs.Ty.Congruence
import ResourceLang.Proofs.Ty.Construction
import ResourceLang.Proofs.Ty.Name
import ResourceLang.Proofs.Ty.Parts
import ResourceLang.Proofs.Ty.Places
import ResourceLang.Proofs.Ty.ReadOnly
import ResourceLang.Proofs.Ty.Rebuilding
import ResourceLang.Proofs.Ty.Refusal
import ResourceLang.Proofs.Ty.Union
import ResourceLang.Proofs.Ty.UnionAcceptance
import ResourceLang.Proofs.Ty.WellFormed
import ResourceLang.Reference.Basic
import ResourceLang.Reference.Grammar
import ResourceLang.Scope
import ResourceLang.Span
import ResourceLang.Syntax.Declaration
import ResourceLang.Syntax.Equality
import ResourceLang.Syntax.Extent
import ResourceLang.Syntax.Layout
import ResourceLang.Syntax.Node
import ResourceLang.Syntax.Shape
import ResourceLang.Syntax.Token
import ResourceLang.Text.Case
import ResourceLang.Text.Printable
import ResourceLang.Text.Quoted
import ResourceLang.Ty.Acceptance
import ResourceLang.Ty.Basic
import ResourceLang.Ty.Construction
import ResourceLang.Ty.Diagnostics
import ResourceLang.Ty.Equality
import ResourceLang.Ty.Flags
import ResourceLang.Ty.Name
import ResourceLang.Ty.ReadOnly
import ResourceLang.Ty.Union
