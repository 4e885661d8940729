import ExprTree.Demo.Sample
import ExprTree.Main
import ExprTree.Wire.Ty
import ExprTree.Wire.Value
import ExprTree.Proofs.WellFormed
import ExprTree.Proofs.Shape
import ExprTree.Proofs.Reachable
import ExprTree.Proofs.Comparison
import ExprTree.Proofs.JoinMeaning
import ExprTree.Proofs.LiftMeaning
import ExprTree.Proofs.TypeOrder
import ExprTree.Proofs.TypeSoundness
import ExprTree.Proofs.Fitting
import ExprTree.Proofs.SpliceMeaning
import ExprTree.Proofs.Hygiene
import ExprTree.Proofs.Lookups
import ExprTree.Proofs.Scopes
import ExprTree.Proofs.FreeOrder
import ExprTree.Proofs.Rebinding
import ExprTree.Proofs.JoinOutcome
import ExprTree.Proofs.Replacing
import ExprTree.Proofs.Folding
import ExprTree.Proofs.Typing
import ExprTree.Proofs.Guarded
import ExprTree.Proofs.Printing
import ExprTree.Proofs.Commutation
import ExprTree.Proofs.Renaming
import ExprTree.Proofs.Interchange
import ExprTree.Proofs.Associativity
import ExprTree.Proofs.Tables
import ExprTree.Proofs.Wire.Basic
import ExprTree.Proofs.Wire.RoundTrip
import ExprTree.Proofs.Reading.Text
import ExprTree.Proofs.Reading.Value
import ExprTree.Proofs.Reading.Expr
import ExprTree.Proofs.Reading.Meaning
import ExprTree.Proofs.Wire.ByteOrder
import ExprTree.Proofs.Wire.Settled
import ExprTree.Proofs.Wire.Canonical
import ExprTree.Proofs.Accounting
import ExprTree.Proofs.Rebuilding
import ExprTree.Proofs.Acceptance
import ExprTree.Proofs.LiftOutcome
import ExprTree.Proofs.Iteration
import ExprTree.Proofs.Distribution
import ExprTree.Proofs.Quantifiers
import ExprTree.Proofs.Unification
import ExprTree.Proofs.Arithmetic
