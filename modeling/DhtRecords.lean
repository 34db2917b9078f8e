import DhtRecords.Main
import DhtRecords.Proofs.Cooldown
import DhtRecords.Proofs.RoundTrip
import DhtRecords.Proofs.Untorn
import DhtRecords.Proofs.Agreement
import DhtRecords.Proofs.Lifetimes
import DhtRecords.Proofs.Issuing
import DhtRecords.Proofs.Acknowledging
import DhtRecords.Proofs.Confirming
import DhtRecords.Proofs.OwnAnswers
import DhtRecords.Proofs.Readback
import DhtRecords.Proofs.HeaderLanguage
import DhtRecords.Proofs.Evidence
import DhtRecords.Proofs.Outcomes
import DhtRecords.Proofs.Signing
import DhtRecords.Proofs.Saving
import DhtRecords.Proofs.Reassembly
import DhtRecords.Proofs.Submitting
import DhtRecords.Proofs.Rounds
import DhtRecords.Proofs.Finality
import DhtRecords.Proofs.Stopping
import DhtRecords.Proofs.Fitting
import DhtRecords.Proofs.Logging
import DhtRecords.Proofs.Batches
import DhtRecords.Proofs.Storing
import DhtRecords.Proofs.KeyFiles
import DhtRecords.Proofs.Commands
import DhtRecords.Proofs.Changing
