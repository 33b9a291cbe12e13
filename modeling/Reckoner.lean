import Reckoner.Session
import Reckoner.Proofs.Arguments
import Reckoner.Proofs.Residue
import Reckoner.Proofs.Selection
import Reckoner.Proofs.Signs
import Reckoner.Proofs.Transparency
import Reckoner.Proofs.Unclosed
import Reckoner.Proofs.Machine
import Reckoner.Proofs.Shape
import Reckoner.Proofs.Finite
import Reckoner.Proofs.Entries
import Reckoner.Proofs.Failure
import Reckoner.Proofs.Registry
import Reckoner.Proofs.Registration
import Reckoner.Proofs.Sorting
import Reckoner.Proofs.Anchors
import Reckoner.Proofs.CaseBlind
import Reckoner.Proofs.Stretches
import Reckoner.Proofs.Angles
import Reckoner.Proofs.Words
import Reckoner.Proofs.Grids
import Reckoner.Proofs.Reading
import Reckoner.Proofs.Recognition
import Reckoner.Proofs.Saved
