import AdcCapture.Proofs.ArgumentErrors
import AdcCapture.Proofs.BlockDelivery
import AdcCapture.Proofs.CaptureContention
import AdcCapture.Proofs.DescriptorInvariant
import AdcCapture.Proofs.DriverEnd
import AdcCapture.Proofs.FieldIndependence
import AdcCapture.Proofs.InterruptLaw
import AdcCapture.Proofs.ModeAgreement
import AdcCapture.Proofs.PinRelease
import AdcCapture.Proofs.PinRouting
import AdcCapture.Proofs.SampleProvenance
import AdcCapture.Proofs.SerialRefinement
import AdcCapture.Proofs.ShownMillivolts
import AdcCapture.Proofs.StartArguments
import AdcCapture.Proofs.StreamRoundTrip
import AdcCapture.Proofs.SubmissionPaths
import AdcCapture.Proofs.TornFields
import AdcCapture.Proofs.UnsignedNumerals
import AdcCapture.Proofs.WatermarkAgreement
import AdcCapture.Proofs.WatermarkAtomicity
import AdcCapture.Script.Completion
import AdcCapture.Script.Sink
import AdcCapture.Proofs.MillivoltQuantiser
import AdcCapture.Proofs.CompletionHistory
