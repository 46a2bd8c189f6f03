import TraitCheck.Path
import TraitCheck.Stack
import TraitCheck.Coverage
import TraitCheck.Log
import TraitCheck.Main
import TraitCheck.Project.Load
import TraitCheck.Check.Program
import TraitCheck.Text.Quoted
import TraitCheck.Ty.Substitution
import TraitCheck.Yaml.Reader
import TraitCheck.Syntax.Visit
import TraitCheck.Syntax.Number
import TraitCheck.Syntax.Show
import TraitCheck.Syntax.Decode
import TraitCheck.Diagnostic.Lists
import TraitCheck.Proofs.Coverage.Branches
import TraitCheck.Proofs.Coverage.Exhaustive
import TraitCheck.Proofs.Coverage.Reachable
import TraitCheck.Proofs.Relation.Chain
import TraitCheck.Proofs.Relation.Names
import TraitCheck.Proofs.Relation.History
import TraitCheck.Proofs.Relation.Sound
import TraitCheck.Proofs.Relation.Rounds
import TraitCheck.Proofs.Relation.Search
import TraitCheck.Proofs.Relation.Plain
import TraitCheck.Proofs.Relation.Order
import TraitCheck.Proofs.Relation.Termination
import TraitCheck.Proofs.Syntax.WellFormed
import TraitCheck.Proofs.Syntax.Decoded
import TraitCheck.Proofs.Check.Program
import TraitCheck.Proofs.Check.Completion
import TraitCheck.Proofs.Check.Scoping
import TraitCheck.Proofs.Check.Cycles
import TraitCheck.Proofs.Project.Loaded
import TraitCheck.Proofs.Relation.Later
import TraitCheck.Proofs.Relation.Evidence
import TraitCheck.Proofs.Relation.Upcast
import TraitCheck.Proofs.Check.Updates
import TraitCheck.Proofs.Check.Moves
import TraitCheck.Proofs.Check.Filing
import TraitCheck.Proofs.Check.Joined
import TraitCheck.Proofs.Check.Filled
import TraitCheck.Proofs.Check.Covered
import TraitCheck.Proofs.Syntax.Within
import TraitCheck.Proofs.Check.Related
import TraitCheck.Proofs.Check.Typed
import TraitCheck.Proofs.Check.Numbered
import TraitCheck.Proofs.Relation.Listing
import TraitCheck.Proofs.Ty.Unify
import TraitCheck.Proofs.Ty.Layers
import TraitCheck.Proofs.Ty.Leaves
import TraitCheck.Proofs.Check.Matching
import TraitCheck.Proofs.Check.Candidates
import TraitCheck.Proofs.Relation.Outline
import TraitCheck.Proofs.Check.Calls
import TraitCheck.Proofs.Check.Leaks
import TraitCheck.Proofs.Check.Knots
import TraitCheck.Proofs.Check.Once
import TraitCheck.Proofs.Coverage.Guards
import TraitCheck.Proofs.Coverage.Single
import TraitCheck.Proofs.Check.Enclosing
import TraitCheck.Proofs.Ty.Renaming
import TraitCheck.Proofs.Check.Renaming
import TraitCheck.Proofs.Check.Identifiers
import TraitCheck.Proofs.Check.Wildcards
import TraitCheck.Proofs.Syntax.Bare
import TraitCheck.Proofs.Syntax.Shorthand
import TraitCheck.Proofs.Syntax.Expansion
import TraitCheck.Proofs.Check.Sites
import TraitCheck.Proofs.Ty.Parts
import TraitCheck.Proofs.Ty.Substitution
import TraitCheck.Proofs.Project.Files
import TraitCheck.Proofs.Project.Modules
import TraitCheck.Proofs.Path
import TraitCheck.Proofs.Relation.Reflexive
import TraitCheck.Proofs.Source
import TraitCheck.Proofs.Syntax.Placed
