import Reckoner.Calculator
import Reckoner.Proofs.Depth
import Reckoner.Proofs.Frame
import Reckoner.Proofs.Independence
import Reckoner.Proofs.Juxtaposition
import Reckoner.Proofs.Path
import Reckoner.Proofs.Real
import Reckoner.Registry
import Reckoner.Tree.Children
import Reckoner.Proofs.Places
import Reckoner.Proofs.Address
import Reckoner.Proofs.Log
import Reckoner.Proofs.Pieces
import Reckoner.Proofs.Prints
import Reckoner.Proofs.Wrappers
import Reckoner.Proofs.Fraction
import Reckoner.Proofs.Digits
import Reckoner.Proofs.History
import Reckoner.Proofs.Legible
import Reckoner.Proofs.Seeding
import Reckoner.Proofs.Spelling
import Reckoner.Proofs.Commit
import Reckoner.Proofs.Calls
import Reckoner.Proofs.Chain
import Reckoner.Proofs.Integers
import Reckoner.Proofs.Powers
import Reckoner.Proofs.Equality
import Reckoner.Proofs.Conversion
import Reckoner.Proofs.Layout
import Reckoner.Proofs.Reshape
import Reckoner.Proofs.Contract
import Reckoner.Proofs.Aggregates
import Reckoner.Proofs.Listing
import Reckoner.Proofs.RoundedOnce
import Reckoner.Proofs.Factorial
import Reckoner.Proofs.Table
import Reckoner.Proofs.HalfUp
