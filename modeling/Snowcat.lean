import Snowcat.Lib.Transaction
import Snowcat.Lib.Machine
import Snowcat.Lib.Table
import Snowcat.Lib.Selection
import Snowcat.Queue.Attempts
import Snowcat.Queue.Lease
import Snowcat.Queue.Admission
import Snowcat.Queue.Evidence
import Snowcat.Queue.Feeder
import Snowcat.Queue.Reads
import Snowcat.Queue.Audit
import Snowcat.Queue.Precondition
import Snowcat.Queue.Choice
import Snowcat.Queue.Creation
import Snowcat.Sweep.GitHub
import Snowcat.Sweep.Boundary
import Snowcat.Sweep.OneCure
import Snowcat.Control.Exclusive
import Snowcat.Repository.Authentic
import Snowcat.Source.Closing
import Snowcat.Source.Unbroken
import Snowcat.Sweep.Patch
import Snowcat.Queue.Churn
import Snowcat.Queue.Cooldown
import Snowcat.Sweep.Review
import Snowcat.Sweep.Gate
import Snowcat.Control.Events
import Snowcat.Control.Suppression
import Snowcat.Control.Canonical
import Snowcat.Repository.Governance
import Snowcat.Queue.Intent
import Snowcat.Sweep.HealthEvidence
import Snowcat.Sweep.Import
import Snowcat.Surface.UpNext
import Snowcat.Verification.RunRate
import Snowcat.Control.Hidden
import Snowcat.Control.Rebuilt
import Snowcat.Repository.AuthorityContext
import Snowcat.Queue.Replay
import Snowcat.Surface.Cycles
import Snowcat.Lib.Keyed
import Snowcat.Queue.Metrics
import Snowcat.Queue.Throughput
import Snowcat.Access.Credential
