import RelationalAlgebra.Main
import RelationalAlgebra.Proofs.Collisions
import RelationalAlgebra.Proofs.Composition
import RelationalAlgebra.Proofs.Construction
import RelationalAlgebra.Proofs.Conversation
import RelationalAlgebra.Proofs.Errors
import RelationalAlgebra.Proofs.Footprint
import RelationalAlgebra.Proofs.Invariant
import RelationalAlgebra.Proofs.Join.Association
import RelationalAlgebra.Proofs.Join.Definition
import RelationalAlgebra.Proofs.Join.Repetition
import RelationalAlgebra.Proofs.Literals
import RelationalAlgebra.Proofs.Loading.Faithfulness
import RelationalAlgebra.Proofs.Narrowing
import RelationalAlgebra.Proofs.Parsing.Location
import RelationalAlgebra.Proofs.Parsing.Termination
import RelationalAlgebra.Proofs.Printing
import RelationalAlgebra.Proofs.Program
import RelationalAlgebra.Proofs.Readings
import RelationalAlgebra.Proofs.Rearrangement
import RelationalAlgebra.Proofs.Renaming
import RelationalAlgebra.Proofs.Segmentation.Neighbours
import RelationalAlgebra.Proofs.Selection
import RelationalAlgebra.Proofs.Selection.Pushdown
import RelationalAlgebra.Proofs.SetAlgebra.Exactness
import RelationalAlgebra.Proofs.Substitution
import RelationalAlgebra.Proofs.Workings.Mirror
