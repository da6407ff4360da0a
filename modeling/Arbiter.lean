import Arbiter.CommandLine
import Arbiter.Host.Recovery
import Arbiter.Host.Saving
import Arbiter.Http.Service
import Arbiter.Main
import Arbiter.OrderedMap.Lookup
import Arbiter.Proofs.Acknowledged
import Arbiter.Proofs.AddressText
import Arbiter.Proofs.AdmittedState
import Arbiter.Proofs.Agreement
import Arbiter.Proofs.Answering
import Arbiter.Proofs.Answers
import Arbiter.Proofs.BallotOrder
import Arbiter.Proofs.ChangedByte
import Arbiter.Proofs.ChangedSnapshot
import Arbiter.Proofs.Chronology
import Arbiter.Proofs.Closable
import Arbiter.Proofs.CrashPoint
import Arbiter.Proofs.Credits
import Arbiter.Proofs.ExactSums
import Arbiter.Proofs.FailedSaves
import Arbiter.Proofs.FirstMajority
import Arbiter.Proofs.Isolation
import Arbiter.Proofs.IssuedProofs
import Arbiter.Proofs.Lifecycle
import Arbiter.Proofs.OfflineAgreement
import Arbiter.Proofs.OfflinePolicy
import Arbiter.Proofs.PastStates
import Arbiter.Proofs.Projection
import Arbiter.Proofs.RefusedFrame
import Arbiter.Proofs.RefusedRecovery
import Arbiter.Proofs.ReplayWindow
import Arbiter.Proofs.ReplyRules
import Arbiter.Proofs.Reputation
import Arbiter.Proofs.Requests
import Arbiter.Proofs.Resolutions
import Arbiter.Proofs.Restart
import Arbiter.Proofs.SameCourse
import Arbiter.Proofs.Scanning
import Arbiter.Proofs.SparedJournal
import Arbiter.Proofs.Standings
import Arbiter.Proofs.Tallies
import Arbiter.Proofs.Numerals
import Arbiter.Proofs.WrittenScores
