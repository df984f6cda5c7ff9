import QuantityCalculus.CompoundUnit.Reader
import QuantityCalculus.Evaluation
import QuantityCalculus.Interchange.Fault
import QuantityCalculus.Proofs.Arithmetic.Addition
import QuantityCalculus.Proofs.Arithmetic.Commutativity
import QuantityCalculus.Proofs.Arithmetic.Dimension
import QuantityCalculus.Proofs.Arithmetic.Grounds
import QuantityCalculus.Proofs.Arithmetic.MatrixProducts
import QuantityCalculus.Proofs.Arithmetic.Operator
import QuantityCalculus.Proofs.Arithmetic.Site
import QuantityCalculus.Proofs.Arithmetic.Table
import QuantityCalculus.Proofs.Arithmetic.Units
import QuantityCalculus.Proofs.Binary64
import QuantityCalculus.Proofs.Builtin.Arguments
import QuantityCalculus.Proofs.Builtin.Catalogue
import QuantityCalculus.Proofs.Builtin.LikeTerms
import QuantityCalculus.Proofs.Builtin.Radical
import QuantityCalculus.Proofs.Builtin.Refusal
import QuantityCalculus.Proofs.Builtin.Series
import QuantityCalculus.Proofs.CompoundUnit.Cancellation
import QuantityCalculus.Proofs.CompoundUnit.Canonical
import QuantityCalculus.Proofs.CompoundUnit.Closure
import QuantityCalculus.Proofs.CompoundUnit.Construction
import QuantityCalculus.Proofs.CompoundUnit.Degree
import QuantityCalculus.Proofs.CompoundUnit.Exactness
import QuantityCalculus.Proofs.CompoundUnit.Grammar
import QuantityCalculus.Proofs.CompoundUnit.InsertionOrder
import QuantityCalculus.Proofs.CompoundUnit.LowestTerms
import QuantityCalculus.Proofs.CompoundUnit.Overflow
import QuantityCalculus.Proofs.CompoundUnit.Pointwise
import QuantityCalculus.Proofs.CompoundUnit.Powers
import QuantityCalculus.Proofs.CompoundUnit.Reader
import QuantityCalculus.Proofs.CompoundUnit.Reading
import QuantityCalculus.Proofs.CompoundUnit.Reduced
import QuantityCalculus.Proofs.CompoundUnit.Refusal
import QuantityCalculus.Proofs.CompoundUnit.Rereading
import QuantityCalculus.Proofs.CompoundUnit.Unambiguous
import QuantityCalculus.Proofs.CompoundUnit.VectorSpace
import QuantityCalculus.Proofs.CompoundUnit.Viability
import QuantityCalculus.Proofs.CompoundUnit.ZeroFree
import QuantityCalculus.Proofs.Equation.Height
import QuantityCalculus.Proofs.Equation.Parts
import QuantityCalculus.Proofs.Equation.Renaming
import QuantityCalculus.Proofs.Evaluation.Agreement
import QuantityCalculus.Proofs.Evaluation.Calls
import QuantityCalculus.Proofs.Evaluation.Coincidence
import QuantityCalculus.Proofs.Evaluation.Compositionality
import QuantityCalculus.Proofs.Evaluation.Correspondence
import QuantityCalculus.Proofs.Evaluation.Culprit
import QuantityCalculus.Proofs.Evaluation.Depth
import QuantityCalculus.Proofs.Evaluation.Dimension
import QuantityCalculus.Proofs.Evaluation.ExponentRange
import QuantityCalculus.Proofs.Evaluation.Grounds
import QuantityCalculus.Proofs.Evaluation.Invariance
import QuantityCalculus.Proofs.Evaluation.Limit
import QuantityCalculus.Proofs.Evaluation.Literal
import QuantityCalculus.Proofs.Evaluation.Location
import QuantityCalculus.Proofs.Evaluation.Node
import QuantityCalculus.Proofs.Evaluation.Order
import QuantityCalculus.Proofs.Evaluation.Renaming
import QuantityCalculus.Proofs.Evaluation.Roots
import QuantityCalculus.Proofs.Evaluation.Safety
import QuantityCalculus.Proofs.Evaluation.Stops
import QuantityCalculus.Proofs.Evaluation.Strictness
import QuantityCalculus.Proofs.Evaluation.Subevaluation
import QuantityCalculus.Proofs.Evaluation.Substitution
import QuantityCalculus.Proofs.Evaluation.Sums
import QuantityCalculus.Proofs.Evaluation.Termination
import QuantityCalculus.Proofs.Evaluation.Unreadable
import QuantityCalculus.Proofs.Exponent
import QuantityCalculus.Proofs.Exponent.Ratio
import QuantityCalculus.Proofs.Interchange.Datum
import QuantityCalculus.Proofs.Interchange.Equation
import QuantityCalculus.Proofs.Interchange.Fault
import QuantityCalculus.Proofs.Interchange.Fractions
import QuantityCalculus.Proofs.Interchange.Value
import QuantityCalculus.Proofs.Interchange.WellFormed
import QuantityCalculus.Proofs.Lists
import QuantityCalculus.Proofs.Matrix
import QuantityCalculus.Proofs.Matrix.Entries
import QuantityCalculus.Proofs.MatrixLiteral
import QuantityCalculus.Proofs.Outcome
import QuantityCalculus.Proofs.Scope.Provenance
import QuantityCalculus.Proofs.Scope.Renaming
import QuantityCalculus.Proofs.Value.Closure
import QuantityCalculus.Proofs.Value.Equality
import QuantityCalculus.Proofs.Value.WellFormed
import QuantityCalculus.Scope.Text
