import FortranExpr.Main
import FortranExpr.Traversal.Trace
import FortranExpr.Proofs.Analysis.Constancy
import FortranExpr.Proofs.Analysis.Specification
import FortranExpr.Proofs.Analysis.Contiguity
import FortranExpr.Proofs.Analysis.InitialTarget
import FortranExpr.Proofs.Traversal.Occurrence
import FortranExpr.Proofs.Traversal.Log
import FortranExpr.Proofs.Analysis.Parentheses
import FortranExpr.Proofs.Analysis.ConstantSpecification
import FortranExpr.Proofs.Fixture.WellFounded
import FortranExpr.Proofs.Fixture.Located
import FortranExpr.Proofs.Fixture.Textless
import FortranExpr.Proofs.Fixture.RoundTrip
import FortranExpr.Proofs.Analysis.InnerScope
import FortranExpr.Proofs.Fixture.CheckIndependence
import FortranExpr.Proofs.Fixture.Extension
import FortranExpr.Proofs.Fixture.Ids
import FortranExpr.Proofs.CommandLine
import FortranExpr.Proofs.Diagnostic.Session
import FortranExpr.Proofs.Analysis.Alias
import FortranExpr.Proofs.Analysis.TargetMessages
import FortranExpr.Proofs.Analysis.TargetShape
import FortranExpr.Proofs.Analysis.AliasConstancy
import FortranExpr.Proofs.Analysis.VariableContiguity
import FortranExpr.Proofs.Analysis.SectionForm
import FortranExpr.Proofs.Analysis.DefiniteContiguity
import FortranExpr.Proofs.Traversal.Count
import FortranExpr.Proofs.Expr.Grouping
import FortranExpr.Proofs.Fixture.Declared
import FortranExpr.Proofs.Diagnostic.Color
import FortranExpr.Proofs.Arguments
import FortranExpr.Proofs.Diagnostic.Merge
import FortranExpr.Proofs.Fixture.BitPattern
import FortranExpr.Proofs.Analysis.Division
import FortranExpr.Proofs.Fixture.Filled
import FortranExpr.Proofs.Ancestors
import FortranExpr.Proofs.Expr.CharacterData
