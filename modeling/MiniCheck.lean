import MiniCheck.Editor.Documents
import MiniCheck.Main
import MiniCheck.Proofs.Acceptance
import MiniCheck.Proofs.Answers
import MiniCheck.Proofs.Coherence
import MiniCheck.Proofs.Equivariance
import MiniCheck.Proofs.Evolution
import MiniCheck.Proofs.Exchange
import MiniCheck.Proofs.FunctionRecords
import MiniCheck.Proofs.Isolation
import MiniCheck.Proofs.MainProtocol
import MiniCheck.Proofs.Pruning
import MiniCheck.Proofs.Recovery
import MiniCheck.Proofs.Rejection
import MiniCheck.Proofs.Surfaces
import MiniCheck.Proofs.WholeTrees
import MiniCheck.Service
import MiniCheck.Session
import MiniCheck.Proofs.InitializerText
import MiniCheck.Proofs.Preorder
import MiniCheck.Proofs.Scopes
import MiniCheck.Proofs.Redeclaration
import MiniCheck.Proofs.Expressions
import MiniCheck.Proofs.Arithmetic
import MiniCheck.Proofs.Calls
import MiniCheck.Proofs.Recursion
import MiniCheck.Proofs.Brackets
import MiniCheck.Proofs.Coordinates
import MiniCheck.Proofs.Drawings
import MiniCheck.Proofs.Highlights
import MiniCheck.Proofs.LineNumbers
import MiniCheck.Proofs.WholeNames
import MiniCheck.Proofs.ParameterConflicts
import MiniCheck.Proofs.Origins
import MiniCheck.Proofs.Listings
import MiniCheck.Proofs.TokenLines
