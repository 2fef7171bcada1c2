import TemplateView.Main
import TemplateView.Lookahead
import TemplateView.Proofs.Grammar.Reread
import TemplateView.Proofs.Grammar.Termination
import TemplateView.Proofs.View.Diagnostics
import TemplateView.Proofs.View.Inventory
import TemplateView.Proofs.View.Meaning
import TemplateView.Proofs.View.Provenance
import TemplateView.Proofs.View.Reproduction
import TemplateView.Proofs.View.Scoping
import TemplateView.Proofs.Run.Tracking
import TemplateView.Proofs.View.Tracking
import TemplateView.Proofs.View.Missing
import TemplateView.Proofs.View.Limits
import TemplateView.Proofs.Grammar.Formed
import TemplateView.Proofs.Generation.Faults
import TemplateView.Proofs.View.Refusals
import TemplateView.Proofs.View.Reading
import TemplateView.Proofs.View.Casing
import TemplateView.Proofs.View.Texts
import TemplateView.Proofs.Grammar.Quoted
import TemplateView.Proofs.View.ProgramText
import TemplateView.Proofs.Tokens
import TemplateView.Proofs.Cursor
import TemplateView.Proofs.Maximal
import TemplateView.Proofs.RefusedCalls
import TemplateView.Proofs.View.Elements
import TemplateView.Proofs.Grammar.Comments
import TemplateView.Proofs.Generation.Attributes
import TemplateView.Proofs.View.NormalForm
import TemplateView.Proofs.View.TemplateComments
import TemplateView.Proofs.View.Values
import TemplateView.Proofs.Generation.Inert
import TemplateView.Proofs.View.Inert
import TemplateView.Proofs.View.Between
import TemplateView.Proofs.Grammar.InlineChains
import TemplateView.Proofs.Grammar.Spacing
import TemplateView.Proofs.Grammar.WellFormed
import TemplateView.Proofs.Value.Splitting
import TemplateView.Proofs.Value.Characters
import TemplateView.Proofs.Value.Equality
import TemplateView.Proofs.Visit.Walk
import TemplateView.Proofs.Generation.Eager
