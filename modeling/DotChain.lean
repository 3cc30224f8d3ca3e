import DotChain.Main
import DotChain.Expr.Outline
import DotChain.Heap.Equality
import DotChain.Heap.Extension
import DotChain.Heap.Write
import DotChain.Outcome
import DotChain.Scripted.Segment
import DotChain.Proofs.Law
import DotChain.Proofs.Balance
import DotChain.Proofs.Persistence
import DotChain.Proofs.Assignability
import DotChain.Expr.Shape
import DotChain.Proofs.Grammar
import DotChain.Proofs.Rounding
import DotChain.Proofs.Numerals
import DotChain.Proofs.Lexemes
import DotChain.Expr.Flatten
import DotChain.Proofs.RoundTrip
import DotChain.Proofs.Bisimilarity
import DotChain.Proofs.Blame
import DotChain.Json.Order
import DotChain.Json.Path
import DotChain.Proofs.Forest
import DotChain.Proofs.Steps
import DotChain.Proofs.Update
import DotChain.Expr.Height
import DotChain.Proofs.Faults
import DotChain.Proofs.Coupling
import DotChain.Proofs.Nesting
import DotChain.Proofs.Flattening
import DotChain.Transcript
import DotChain.Proofs.Calls
import DotChain.Expr.Assignment
import DotChain.Expr.Cost
import DotChain.Proofs.Positions
import DotChain.Proofs.Visibility
import DotChain.Proofs.Confinement
import DotChain.Proofs.Costs
import DotChain.Proofs.Assigning
import DotChain.Heap.Occurrence
import DotChain.Proofs.BackReferences
import DotChain.Proofs.Exchange
import DotChain.Expr.Parts
import DotChain.Proofs.Tiling
import DotChain.Proofs.Excerpts
import DotChain.Proofs.Endings
import DotChain.Proofs.Relocation
import DotChain.Proofs.Spacing
import DotChain.Proofs.Composition
import DotChain.Proofs.Stacks
import DotChain.Proofs.Policies
import DotChain.Reach
import DotChain.Proofs.Realms
import DotChain.Proofs.Locations
import DotChain.Proofs.Provenance
import DotChain.Proofs.ReadBack
import DotChain.Proofs.Literals
import DotChain.Token.Pattern
import DotChain.Proofs.Patterns
import DotChain.Proofs.Conservation
import DotChain.Proofs.Spellings
import DotChain.Proofs.Characters
import DotChain.Act
import DotChain.Proofs.Inference
import DotChain.Proofs.Acts
import DotChain.Text.Slice
import DotChain.Proofs.Carets
import DotChain.Proofs.Parentheses
