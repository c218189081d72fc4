import Khronos.Proofs.Agreement
import Khronos.Proofs.Alike
import Khronos.Proofs.Arguments
import Khronos.Proofs.Attempts
import Khronos.Proofs.Backed
import Khronos.Proofs.Backoff
import Khronos.Proofs.Buffering
import Khronos.Proofs.Catalogued
import Khronos.Proofs.Commuting
import Khronos.Proofs.Copies
import Khronos.Proofs.Counting
import Khronos.Proofs.Cron
import Khronos.Proofs.Dated
import Khronos.Proofs.Decoding
import Khronos.Proofs.Delivered
import Khronos.Proofs.Described
import Khronos.Proofs.Draining
import Khronos.Proofs.Ended
import Khronos.Proofs.Executing
import Khronos.Proofs.Failing
import Khronos.Proofs.Faults
import Khronos.Proofs.Firing
import Khronos.Proofs.Heartbeats
import Khronos.Proofs.Inserting
import Khronos.Proofs.Intervals
import Khronos.Proofs.Isolation
import Khronos.Proofs.Ledgers
import Khronos.Proofs.Listed
import Khronos.Proofs.OneEach
import Khronos.Proofs.Order
import Khronos.Proofs.Ownership
import Khronos.Proofs.Raced
import Khronos.Proofs.Readers
import Khronos.Proofs.Recovered
import Khronos.Proofs.Refused
import Khronos.Proofs.Reload
import Khronos.Proofs.Repeated
import Khronos.Proofs.Retries
import Khronos.Proofs.Routed
import Khronos.Proofs.Scheduled
import Khronos.Proofs.Served
import Khronos.Proofs.Settled
import Khronos.Proofs.Stored
import Khronos.Proofs.Timeouts
import Khronos.Proofs.Told
import Khronos.Proofs.Upcoming
import Khronos.Proofs.Updated
import Khronos.Proofs.Waking
import Khronos.Worker.Poller
