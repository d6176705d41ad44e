import BeaconEpoch.Config.Document
import BeaconEpoch.Document.State
import BeaconEpoch.Walk
import BeaconEpoch.Proofs.Committee
import BeaconEpoch.Proofs.Progress.Walk
import BeaconEpoch.Proofs.Range.Walk
import BeaconEpoch.Proofs.Schedule
import BeaconEpoch.Proofs.Transparency
import BeaconEpoch.Proofs.Accounting.Balance
import BeaconEpoch.Proofs.Accounting.Flags
import BeaconEpoch.Proofs.Accounting.Votes
import BeaconEpoch.Proofs.Accounting.Pending
import BeaconEpoch.Proofs.Accounting.Upgrade
import BeaconEpoch.Proofs.Accounting.Report
import BeaconEpoch.Proofs.Alignment
import BeaconEpoch.Proofs.Comparison.Basic
import BeaconEpoch.Proofs.Comparison.Chain
import BeaconEpoch.Proofs.Comparison.Epoch
import BeaconEpoch.Proofs.Comparison.Idle
import BeaconEpoch.Proofs.Comparison.Order
import BeaconEpoch.Proofs.Comparison.Votes
import BeaconEpoch.Proofs.Tenure
import BeaconEpoch.Proofs.Accounting.Selection
import BeaconEpoch.Proofs.Accounting.Translation
import BeaconEpoch.Proofs.Document.State
import BeaconEpoch.Proofs.Inactivity
import BeaconEpoch.Proofs.Itinerary
import BeaconEpoch.Proofs.Sweep
import BeaconEpoch.Proofs.Reward.Pending
import BeaconEpoch.Proofs.Reward.Leak
import BeaconEpoch.Proofs.Reward.Issuance
import BeaconEpoch.Proofs.Calendar
import BeaconEpoch.Proofs.Reward.Merit
import BeaconEpoch.Proofs.Accounting.Forecast
import BeaconEpoch.Proofs.Accounting.Opening
import BeaconEpoch.Proofs.History
import BeaconEpoch.Proofs.Reward.Burn
import BeaconEpoch.Proofs.Config.RoundTrip
