import NodeFormula.Mesh.Parametric
import NodeFormula.Mesh.Supershape
import NodeFormula.Panel.Formula
import NodeFormula.Panel.Sweep
import NodeFormula.Stage
import NodeFormula.Survey.Tables
import NodeFormula.Sweep
import NodeFormula.Trial
import NodeFormula.Proofs.Negation
import NodeFormula.Proofs.RoundTrip
import NodeFormula.Proofs.Targets
import NodeFormula.Proofs.CodeFaults
import NodeFormula.Proofs.Converting
import NodeFormula.Proofs.Listing
import NodeFormula.Proofs.Layout.Levels
import NodeFormula.Proofs.Layout.Corners
import NodeFormula.Proofs.Completing
import NodeFormula.Proofs.Outputs
import NodeFormula.Proofs.Drawing
import NodeFormula.Proofs.Overloads
import NodeFormula.Proofs.Definitions
import NodeFormula.Proofs.Literals
import NodeFormula.Proofs.Reaching
import NodeFormula.Proofs.Edits
import NodeFormula.Proofs.Substitution
import NodeFormula.Proofs.Circulation
import NodeFormula.Proofs.Surveying
