import Collocation.Bounds.Written
import Collocation.Check.Catalogue
import Collocation.Decimal.Double
import Collocation.Fault.Announced
import Collocation.Layout.Draft
import Collocation.Notation.Expr
import Collocation.Problem.Declaration
import Collocation.Problem.Evaluation
import Collocation.Session
import Collocation.Simulation.Engine
import Collocation.Proofs.Problem.Attempts
import Collocation.Proofs.Problem.Order
import Collocation.Proofs.Session.Isolation
import Collocation.Proofs.Transcription.Feasibility
import Collocation.Proofs.Transcription.Horizon
import Collocation.Proofs.Transcription.Mayer
import Collocation.Proofs.Solution.Lookup
import Collocation.Proofs.Transcription.WarmStart
import Collocation.Proofs.Transcription.Band
import Collocation.Proofs.Transcription.Schemes
import Collocation.Proofs.Problem.Failures
import Collocation.Proofs.Registry
import Collocation.Proofs.Transcription.Configuration
import Collocation.Proofs.Transcription.Exactness
import Collocation.Proofs.Guess.Placement
import Collocation.Proofs.Guess.Corruption
import Collocation.Proofs.Transcription.DefaultHorizon
import Collocation.Proofs.Mesh.Rebuilding
import Collocation.Proofs.Mesh.Agreement
import Collocation.Proofs.Transcription.Restart
import Collocation.Proofs.Problem.FunctionNames
import Collocation.Proofs.Simulation.Dynamics
import Collocation.Proofs.Bounds.Written
import Collocation.Proofs.Layout.Attempts
import Collocation.Proofs.Solution.Shapes
import Collocation.Proofs.Layout.Indices
import Collocation.Proofs.Problem.Containers
import Collocation.Proofs.Decimal.Difference
import Collocation.Proofs.Mesh.Spacing
import Collocation.Proofs.Solver.Reading
import Collocation.Proofs.Solver.Options
import Collocation.Proofs.Decimal.Faithful
import Collocation.Proofs.Decimal.Grain
