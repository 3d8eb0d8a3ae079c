import ExchangeApiws.Native.Runner

/-!
# Rate-limit guard

Translation of `WsMsgGuard` in `src/ws/runner.rs`, the sliding-window limiter that the feed
runner and the order client call before every outbound message. Instants are nanoseconds.
-/

namespace ExchangeApiws.Native.MsgGuard

open Runner

structure WsMsgGuard where
  /-- Send times, the oldest first. -/
  window : List ℕ
  maxMsgs : ℕ
  windowDur : ℕ
  deriving DecidableEq, Repr

def WsMsgGuard.new : WsMsgGuard where
  window := []
  maxMsgs := 100
  windowDur := nanos 10

/-- Drop timestamps older than the window. -/
def WsMsgGuard.prune (now : ℕ) (guard : WsMsgGuard) : WsMsgGuard :=
  { guard with window := guard.window.dropWhile fun t => guard.windowDur < now - t }

/-- How long to sleep until the oldest message falls out of the window. -/
def WsMsgGuard.wait (now : ℕ) (guard : WsMsgGuard) : ℕ :=
  if guard.maxMsgs ≤ guard.window.length then
    match guard.window with
    | [] => 0
    | oldest :: _ => guard.windowDur - (now - oldest)
  else 0

/-- `push_back` of a send time. -/
def WsMsgGuard.push (sent : ℕ) (guard : WsMsgGuard) : WsMsgGuard :=
  { guard with window := guard.window ++ [sent] }

/-- A call of `check`: what its two readings of the clock yield. -/
structure Check where
  now : ℕ
  /-- The reading after the sleep, recorded as the send time. -/
  sent : ℕ
  deriving DecidableEq, Repr

/-- `check`; `none` when the clock cannot yield these readings. -/
def WsMsgGuard.check (guard : WsMsgGuard) (call : Check) : Option WsMsgGuard :=
  let pruned := guard.prune call.now
  if call.now + pruned.wait call.now ≤ call.sent then some (pruned.push call.sent) else none

end ExchangeApiws.Native.MsgGuard
