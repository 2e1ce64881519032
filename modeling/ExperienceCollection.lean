import ExperienceCollection.Actor.Pool
import ExperienceCollection.Network.Scripted
import ExperienceCollection.Store.Basic
import ExperienceCollection.Wire.Datum
import ExperienceCollection.Wire.Message
import ExperienceCollection.Wire.Settings
import ExperienceCollection.Proofs.Random.Sample
import ExperienceCollection.Proofs.Store.Placement
import ExperienceCollection.Proofs.Store.Slots
import ExperienceCollection.Proofs.Store.Invariant
import ExperienceCollection.Proofs.Store.History
import ExperienceCollection.Proofs.Store.Draws
import ExperienceCollection.Proofs.Store.Provenance
import ExperienceCollection.Proofs.Store.ReadBack
import ExperienceCollection.Proofs.Store.Verdict
import ExperienceCollection.Proofs.Store.Eviction
import ExperienceCollection.Proofs.Store.Update
import ExperienceCollection.Proofs.Store.Rolling
import ExperienceCollection.Proofs.Store.Splitting
import ExperienceCollection.Proofs.Store.Word
import ExperienceCollection.Proofs.Store.Machine
import ExperienceCollection.Proofs.Store.Reading
import ExperienceCollection.Proofs.Store.Renewal
import ExperienceCollection.Proofs.Store.Faultless
import ExperienceCollection.Proofs.Store.Commutation
import ExperienceCollection.Proofs.Store.Creation
import ExperienceCollection.Proofs.Collection.Pull
import ExperienceCollection.Proofs.Collection.Quorum
import ExperienceCollection.Proofs.Collection.Totals
import ExperienceCollection.Proofs.Collection.Tenure
import ExperienceCollection.Proofs.Collection.Fused
import ExperienceCollection.Proofs.Collection.Journal
import ExperienceCollection.Proofs.Network.Build
import ExperienceCollection.Proofs.Network.Enrolment
import ExperienceCollection.Proofs.Network.Lawful
import ExperienceCollection.Proofs.Network.Traffic
import ExperienceCollection.Proofs.Actor.Errands
import ExperienceCollection.Proofs.Actor.AtWork
import ExperienceCollection.Proofs.Actor.Exchange
import ExperienceCollection.Proofs.Actor.Farewell
import ExperienceCollection.Proofs.Actor.Course
import ExperienceCollection.Proofs.Actor.Attempts
import ExperienceCollection.Proofs.Actor.Reports
import ExperienceCollection.Proofs.Actor.Stats
import ExperienceCollection.Proofs.Collection.System
import ExperienceCollection.Proofs.Collection.Answers
import ExperienceCollection.Proofs.Collection.Progress
import ExperienceCollection.Proofs.Wire.RoundTrip
import ExperienceCollection.Proofs.Wire.Revision
