import StackCalc.Bench
import StackCalc.Inspection
import StackCalc.Main
import StackCalc.Proofs.Delivery
import StackCalc.Proofs.Dialogue
import StackCalc.Proofs.DistinctKeys
import StackCalc.Proofs.Doubles
import StackCalc.Proofs.ErrorOffset
import StackCalc.Proofs.Footprint
import StackCalc.Proofs.HostPrograms
import StackCalc.Proofs.Leftovers
import StackCalc.Proofs.ManifestVersion
import StackCalc.Proofs.NearestDouble
import StackCalc.Proofs.ShortestDigits
import StackCalc.Proofs.ReadingBack
import StackCalc.Proofs.SignedZeros
import StackCalc.Proofs.EqualByValue
import StackCalc.Proofs.FaithfulText
import StackCalc.Proofs.FoldingInvariant
import StackCalc.Proofs.RegisterUnion
import StackCalc.Proofs.RequestedRegisters
import StackCalc.Proofs.Savings
import StackCalc.Proofs.SettingsErrors
import StackCalc.Proofs.Spacing
import StackCalc.Proofs.UnknownRegisters
import StackCalc.Token.Cursor
