import PlaneFigure.Main
import PlaneFigure.Graph.Summary
import PlaneFigure.StraightLine
import PlaneFigure.Decimal.Significant
import PlaneFigure.Proofs.Descent.Report
import PlaneFigure.Proofs.Draft.Constructed
import PlaneFigure.Proofs.Draft.Determined
import PlaneFigure.Proofs.Draft.Verdict
import PlaneFigure.Proofs.Graph.Gradient
import PlaneFigure.Proofs.Simulation.Reading
import PlaneFigure.Proofs.Draft.Checks
import PlaneFigure.Proofs.Drawing.Attempts
import PlaneFigure.Proofs.Draft.Index
import PlaneFigure.Proofs.Draft.Tables
import PlaneFigure.Proofs.Draft.Variables
import PlaneFigure.Proofs.Drawing.Variables
import PlaneFigure.Proofs.Graph.Copy
import PlaneFigure.Proofs.Simulation.Content
import PlaneFigure.Proofs.Placement.Growth
import PlaneFigure.Proofs.Placement.Polygon
import PlaneFigure.Proofs.Instruction.RoundTrip
import PlaneFigure.Proofs.Instruction.Rewording
import PlaneFigure.Proofs.Draft.Frame
import PlaneFigure.Proofs.Guarded.Run
import PlaneFigure.Proofs.Descent.Decrease
import PlaneFigure.Proofs.Graph.Interchange
import PlaneFigure.Proofs.Graph.Evaluation
import PlaneFigure.Proofs.Graph.Maximum
import PlaneFigure.Proofs.Draft.Total
import PlaneFigure.Proofs.Geometry.Crossing
import PlaneFigure.Proofs.Geometry.Construction
import PlaneFigure.Proofs.Draft.Crossing
import PlaneFigure.Proofs.Draft.Parallel
import PlaneFigure.Proofs.Placement.Regular
import PlaneFigure.Proofs.Placement.Acute
import PlaneFigure.Proofs.Draft.Triangles
import PlaneFigure.Proofs.Variable.Drawable
import PlaneFigure.Proofs.Geometry.Incenter
import PlaneFigure.Proofs.Geometry.Centroid
import PlaneFigure.Proofs.Geometry.Angle
import PlaneFigure.Proofs.Geometry.Between
import PlaneFigure.Proofs.Draft.Finished
import PlaneFigure.Proofs.Graph.NormalForm
import PlaneFigure.Proofs.Graph.Constants
import PlaneFigure.Proofs.Graph.Renaming
import PlaneFigure.Proofs.Graph.Redex
import PlaneFigure.Proofs.CommandLine.Emit
import PlaneFigure.Proofs.Graph.Rewriting
import PlaneFigure.Proofs.Graph.Size
