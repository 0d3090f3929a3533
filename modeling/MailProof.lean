import MailProof.Gadget.HashCircuit
import MailProof.Main
import MailProof.Session.Fault
import MailProof.Proofs.Agreement
import MailProof.Proofs.Groth16.RoundTrip
import MailProof.Proofs.Session.Consumption
import MailProof.Proofs.Session.Failure
import MailProof.Proofs.Session.Provenance
import MailProof.Proofs.Circuit.PublicInputs
import MailProof.Proofs.Groth16.Framing
import MailProof.Proofs.Groth16.Persistence
import MailProof.Proofs.Curve.Pairing
import MailProof.Proofs.Groth16.Alteration
import MailProof.Proofs.Circuit.Verdict
import MailProof.Proofs.Circuit.HashCircuit
import MailProof.Proofs.KeyPair.Store
import MailProof.Proofs.Refusal
import MailProof.Proofs.Session.Secrecy
import MailProof.Proofs.Packing.Buffer
import MailProof.Proofs.Unpacking
import MailProof.Proofs.Derivation
import MailProof.Proofs.Session.Expiry
import MailProof.Proofs.Session.Isolation
import MailProof.Proofs.KeyPair.Framing
import MailProof.Proofs.Mimc.Hasher
import MailProof.Proofs.Mimc.Fault
import MailProof.Proofs.Mimc.Cipher
import MailProof.Proofs.Spelling
