import ScriptToC.Main
import ScriptToC.Template.Layout
import ScriptToC.Template.Reader
import ScriptToC.Proofs.Emission.Run
import ScriptToC.Proofs.Scope.Operations
import ScriptToC.Proofs.Emission.Evolution
import ScriptToC.Proofs.Emission.Rules
import ScriptToC.Proofs.CCode.Reading
import ScriptToC.Proofs.Emission.Bodies
import ScriptToC.Proofs.Release.Return
import ScriptToC.Proofs.Release.Assigned
import ScriptToC.Proofs.Hoisting.Capture
import ScriptToC.Proofs.Hoisting.Declarations
import ScriptToC.Proofs.Errors.Modules
import ScriptToC.Proofs.Grouping.Expressions
import ScriptToC.Proofs.Template.Substitution
import ScriptToC.Proofs.Ir.Parts
import ScriptToC.Proofs.Lowering.Parts
import ScriptToC.Proofs.Errors.Types
import ScriptToC.Proofs.Names.Distinct
import ScriptToC.Proofs.Emission.Requests
import ScriptToC.Proofs.Lowering.Hygiene
import ScriptToC.Proofs.Evaluation.Runs
import ScriptToC.Proofs.Evaluation.Sites
import ScriptToC.Proofs.Template.RoundTrip
import ScriptToC.Proofs.Emission.Repetition
import ScriptToC.Proofs.Lowering.Promotion
import ScriptToC.Proofs.Lowering.Traces
import ScriptToC.Proofs.Lowering.Records
import ScriptToC.Proofs.Lowering.Final
import ScriptToC.Proofs.Lowering.Agreement
import ScriptToC.Proofs.Lowering.Initializers
import ScriptToC.Proofs.Lowering.Fixpoint
import ScriptToC.Proofs.Lowering.Declarations
import ScriptToC.Proofs.Lowering.Reordering
import ScriptToC.Proofs.Runtime.Backing
import ScriptToC.Proofs.Scope.Histories
import ScriptToC.Proofs.Template.Elimination
import ScriptToC.Proofs.Evaluation.Selection
import ScriptToC.Proofs.Containers.Soundness
import ScriptToC.Proofs.Release.Owned
import ScriptToC.Proofs.Names.Runs
import ScriptToC.Proofs.Runtime.Literals
import ScriptToC.Proofs.Emission.Pairing
import ScriptToC.Proofs.Emission.Confinement
import ScriptToC.Proofs.Runtime.Comparisons
import ScriptToC.Proofs.Runtime.Includes
import ScriptToC.Proofs.Containers.Entries
import ScriptToC.Proofs.Containers.Lengths
import ScriptToC.Proofs.Containers.OldState
import ScriptToC.Proofs.Runtime.Operators
import ScriptToC.Proofs.Release.Copies
import ScriptToC.Proofs.Text.Position
import ScriptToC.Proofs.Lowering.TextLiterals
import ScriptToC.Proofs.Evaluation.Counting
import ScriptToC.Proofs.Template.Elements
import ScriptToC.Proofs.Emission.LineStarts
