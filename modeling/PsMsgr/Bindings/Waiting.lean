import PsMsgr.Effect.Program

namespace PsMsgr

open Effect

/-! # The waits of the bindings

The C#, Go and Python readers wait in slices of at most 100 ms, so that a cancellation or a
close from another thread is noticed, and keep the time themselves.  They differ in the
arithmetic they keep it with.
-/

/-- The results of `psmsgr_state_wait` the bindings tell apart. -/
inductive NativeResult where
  | ok | timeout | intr | failed
deriving DecidableEq

/-- What a wait asks its surroundings. -/
inductive WaitCall where
  /-- The monotonic clock. -/
  | now
  /-- `psmsgr_state_wait` with a timeout in milliseconds. -/
  | stateWait (ms : Int)
  /-- Whether the wait was cancelled, the reader closed or an exception raised meanwhile. -/
  | stopped
  /-- How far the deadline of the context lies ahead, if it has one. -/
  | contextDeadline

abbrev WaitCall.Reply : WaitCall → Type
  | .now => UInt64
  | .stateWait _ => NativeResult
  | .stopped => Bool
  | .contextDeadline => Option Int

abbrev WaitProg := Program WaitCall WaitCall.Reply

abbrev askWait (request : WaitCall) : WaitProg request.Reply := Program.perform request

inductive Waited where
  | changed
  | timedOut
  /-- An exception or an error was returned. -/
  | gaveUp
  /-- Still waiting when the run ends. -/
  | waiting
deriving DecidableEq

/-- The slice to wait next: its length in milliseconds and, if the wait can time out after it,
what the clock is compared with. -/
structure Slice where
  ms : Int
  expired : Option (UInt64 → Bool)

/-- The loop the bindings share.  `plan` gives up or plans the next slice, `interrupted` says
whether an interrupted wait is given up; `turns` bounds the turns in one run. -/
def waitSlices (plan : WaitProg (Option Slice)) (interrupted : WaitProg Bool) :
    Nat → WaitProg Waited
  | 0 => return .waiting
  | turns + 1 => do
      match ← plan with
      | none => return .gaveUp
      | some slice =>
          match ← askWait (.stateWait slice.ms) with
          | .ok => return .changed
          | .timeout =>
              match slice.expired with
              | none => waitSlices plan interrupted turns
              | some expired =>
                  if slice.ms = 0 then
                    return .timedOut
                  else if expired (← askWait .now) then
                    return .timedOut
                  else
                    waitSlices plan interrupted turns
          | .intr =>
              if ← interrupted then
                return .gaveUp
              else
                waitSlices plan interrupted turns
          | .failed => return .gaveUp

def waitSliceMs : Int := 100

namespace CSharp

def maxValue : UInt64 := 0xFFFFFFFFFFFFFFFF

/-- Saturates. -/
def deadline (ticks now : UInt64) : UInt64 :=
  let ns := ticks * 100
  let ns := if ns / 100 ≠ ticks then maxValue else ns
  if maxValue - now < ns then maxValue else now + ns

/-- Rounded up. -/
def remaining (deadline now : UInt64) : UInt64 :=
  if now ≥ deadline then 0 else (deadline - now + 999999) / 1000000

/-- The next slice; without a deadline the wait is infinite. -/
def plan (deadline : Option UInt64) : WaitProg (Option Slice) := do
  if ← askWait .stopped then
    return none
  match deadline with
  | none => return some ⟨waitSliceMs, none⟩
  | some deadline =>
      let now ← askWait .now
      return some ⟨(min (remaining deadline now) 100).toNat, some (fun now => now ≥ deadline)⟩

/-- `Timeout.InfiniteTimeSpan` in ticks. -/
def infiniteTimeSpan : Int := -10000

/-- `timeout` is a `TimeSpan` in ticks of 100 ns. -/
def wait (timeout : Int) (turns : Nat) : WaitProg Waited := do
  if timeout = infiniteTimeSpan then
    waitSlices (plan none) (return false) turns
  else if timeout < 0 then
    return .gaveUp
  else
    let now ← askWait .now
    waitSlices (plan (some (deadline (UInt64.ofInt timeout) now))) (return false) turns

end CSharp

namespace Go

/-- The value of a 64-bit signed expression. -/
def int64 (value : Int) : Int := value.bmod (2 ^ 64)

def maxInt64 : Int := 2 ^ 63 - 1

def millisecond : Int := 1000000

def waitSlice : Int := 100 * millisecond

/-- `Time.Sub` saturates. -/
def sub (left right : Int) : Int := max (-2 ^ 63) (min maxInt64 (left - right))

/-- `Duration.Truncate` -/
def truncate (d m : Int) : Int := int64 (d - d.tmod m)

/-- Whole milliseconds. -/
def rounded (timeout : Int) : Int :=
  if 0 < timeout ∧ timeout ≤ int64 (maxInt64 - millisecond) then
    truncate (int64 (int64 (timeout + millisecond) - 1)) millisecond
  else timeout

/-- The length of a slice in milliseconds, rounded up. -/
def milliseconds (slice : Int) : Int :=
  ((int64 (int64 (slice + millisecond) - 1)).tdiv millisecond).bmod (2 ^ 32)

/-- The slice ends with the deadline of the context, which lies so far ahead. -/
def cut (slice : Int) : Option Int → Int
  | none => slice
  | some ahead => min slice (sub ahead 0)

/-- The next slice of a wait that started at `start`. -/
def plan (timeout : Int) (start : UInt64) : WaitProg (Option Slice) := do
  if ← askWait .stopped then
    return none
  let now ← askWait .now
  let deadline ← askWait .contextDeadline
  if deadline.any (· ≤ 0) then
    return none
  let rem := int64 (timeout - sub now.toNat start.toNat)
  -- last: the slice ends with the timeout.
  let last := decide (timeout ≥ 0) && decide (rem ≤ waitSlice)
  let slice := if last then max rem 0 else waitSlice
  return some ⟨milliseconds (cut slice deadline),
    if last then some (fun now => sub now.toNat start.toNat ≥ timeout) else none⟩

/-- `timeout` is a `time.Duration`; a negative one is infinite. -/
def wait (timeout : Int) (turns : Nat) : WaitProg Waited := do
  let start ← askWait .now
  waitSlices (plan (rounded timeout) start) (return false) turns

end Go

namespace Python

/-- Rounded up by floor division of the negative. -/
def milliseconds (remaining : Int) : Int :=
  if remaining > 0 then min (-((-remaining).fdiv 1000000)) waitSliceMs else 0

def plan (deadline : Option Int) : WaitProg (Option Slice) := do
  if ← askWait .stopped then
    return none
  match deadline with
  | none => return some ⟨waitSliceMs, none⟩
  | some deadline =>
      let now ← askWait .now
      return some ⟨milliseconds (deadline - now.toNat), some (fun now => now.toNat ≥ deadline)⟩

/-- `timeout` is in nanoseconds; signal handlers run when a wait is interrupted. -/
def wait (timeout : Option Int) (turns : Nat) : WaitProg Waited := do
  match timeout with
  | none => waitSlices (plan none) (askWait .stopped) turns
  | some timeout =>
      let now ← askWait .now
      waitSlices (plan (some (now.toNat + timeout))) (askWait .stopped) turns

end Python

end PsMsgr
