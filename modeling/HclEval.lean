import HclEval.CommandLine.Folder
import HclEval.Json.Reader
import HclEval.Main
import HclEval.Proofs.Aliases.Evaluation
import HclEval.Proofs.Blocks.Atomicity
import HclEval.Proofs.Blocks.Conservation
import HclEval.Proofs.Blocks.Repeated
import HclEval.Proofs.DocumentScope
import HclEval.Proofs.Expressions.Conditionals
import HclEval.Proofs.Expressions.Directives
import HclEval.Proofs.Expressions.EarlyEvaluation
import HclEval.Proofs.IgnoredErrors
import HclEval.Proofs.IterationVariables
import HclEval.Proofs.Json.RoundTrip
import HclEval.Proofs.Leftovers
import HclEval.Proofs.LocalDeclarations
import HclEval.Proofs.Lookups
import HclEval.Proofs.Once.Evaluation
import HclEval.Proofs.OrderIndependence
import HclEval.Proofs.RecursionLimit
import HclEval.Proofs.ReferenceValues
import HclEval.Proofs.Refinement
import HclEval.Proofs.VariableValues
import HclEval.Proofs.Expressions.Constants
import HclEval.Proofs.Expressions.Comprehensions
import HclEval.Proofs.Expressions.IdentityComprehensions
import HclEval.Proofs.Expressions.Spreading
import HclEval.Proofs.Expressions.LogicalOperators
import HclEval.Proofs.Expressions.Templates
import HclEval.Proofs.LiteralDocuments
import HclEval.Proofs.Indexing
import HclEval.Proofs.ReferencePaths
import HclEval.Proofs.Stacks
import HclEval.Proofs.Functions.Encodings
import HclEval.Proofs.Functions.Formatting
import HclEval.Proofs.Functions.Merging
import HclEval.Proofs.Functions.Parts
import HclEval.Proofs.Functions.Separators
import HclEval.Proofs.Source.Positions
import HclEval.Proofs.TypeDeclarations
