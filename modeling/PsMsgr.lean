import PsMsgr.Effect.Schedules
import PsMsgr.State.Unlink
import PsMsgr.Channel.System
import PsMsgr.Properties.Announcement
import PsMsgr.Properties.Bounds
import PsMsgr.Properties.Classification
import PsMsgr.Properties.DeferredClose
import PsMsgr.Properties.Exclusion
import PsMsgr.Properties.Generations
import PsMsgr.Properties.Linearizability
import PsMsgr.Properties.Names
import PsMsgr.Properties.Opening
import PsMsgr.Properties.Replacement
import PsMsgr.Properties.Retries
import PsMsgr.Properties.Scopes
import PsMsgr.Properties.SharedState
import PsMsgr.Properties.SizedStructs
import PsMsgr.Properties.SlicedWaits
import PsMsgr.Properties.Succession
import PsMsgr.Properties.TooSmall
import PsMsgr.Properties.WakeUp
import PsMsgr.Properties.WriterAlive
import PsMsgr.Properties.Absence
import PsMsgr.Properties.Agreement
import PsMsgr.Properties.Failures
import PsMsgr.Properties.LockTurns
import PsMsgr.Properties.Timestamps
import PsMsgr.Properties.WaitFree
import PsMsgr.Properties.Waits
