import ExchangeApiws.Native.Error

/-!
# WebSocket order client

Translation of `src/ws/orders.rs`: the calls of `send_and_await` through any clones of one
`WsOrderClient`, `close`, the writer task and the reader task. What runs without an await
point or under the lock of the pending map is one step; everything else interleaves.

Calls are numbered in the order in which they start. A frame in the outbound queue, in the
hands of the writer or on the socket is named by its call.
-/

namespace ExchangeApiws.Native.WsOrders

open Std (ExtTreeMap)

variable {F : Type}

/-- Maximum number of outbound frames queued ahead of the writer task. -/
def OUTBOUND_QUEUE_CAPACITY : ℕ := 256

/-- Server response to a single order request, matched by `clientOid`. -/
structure WsOrderAck (F : Type) where
  clientOid : String
  orderId : Option String
  success : Bool
  errorCode : Option String
  errorMsg : Option String
  raw : Value F

/-- What the reader task resolves the still-pending requests with when it ends. -/
def WsOrderAck.connectionClosed : WsOrderAck F where
  clientOid := ""
  orderId := none
  success := false
  errorCode := some "connection_closed"
  errorMsg := some "WS-order connection closed"
  raw := .null

/-! ## Inbound parser -/

/-- The success flag, error code and error message of a frame that carries a `clientOid`. -/
def outcomeOf (msgType : String) (json data : Value F) : Bool × Option String × Option String :=
  if msgType = "error" then
    (false,
      ((json.get "code").bind Value.asStr).or ((data.get "code").bind Value.asStr),
      (((data.get "msg").bind Value.asStr).or ((json.get "msg").bind Value.asStr)).or data.asStr)
  else
    -- "ack", "received" and "order", but also any other type that carries a clientOid
    (true, none, none)

/-- Parse an inbound frame into an ack if it carries one. -/
def parseInbound (fromStr : String → Option (Value F)) (raw : String) : Option (WsOrderAck F) := do
  let json ← fromStr raw
  let msgType := json.strOr "type" ""
  if msgType = "welcome" ∨ msgType = "pong" ∨ msgType = "ping" then none
  else
    let data ← json.get "data"
    let clientOid ← (data.get "clientOid").bind Value.asStr
    let (success, errorCode, errorMsg) := outcomeOf msgType json data
    return {
      clientOid := clientOid
      orderId := (data.get "orderId").bind Value.asStr
      success := success
      errorCode := errorCode
      errorMsg := errorMsg
      raw := json }

/-! ## State -/

/-- The errors that `send_and_await` returns. -/
inductive CallError where
  /-- The client was already closed when the call started. -/
  | connectionClosed
  | queueFull
  | writerClosed
  /-- The sender of the response channel was dropped. -/
  | channelClosed
  | timedOut
  deriving DecidableEq, Repr

/-- The error a caller sees; `timeoutSecs` is the request timeout. -/
def CallError.toExchangeError (timeoutSecs : ℕ) : CallError → ExchangeError
  | .connectionClosed => .order "WS-order connection is closed"
  | .queueFull => .order ("WS-order outbound queue is full (" ++ toString OUTBOUND_QUEUE_CAPACITY ++
      " frames) — writer is rate-limited or stalled")
  | .writerClosed => .order "WS-order writer task is closed"
  | .channelClosed => .order "WS-order response channel closed before ack arrived"
  | .timedOut => .order ("WS-order request timed out after " ++ toString timeoutSecs ++ " s")

/-- The oneshot channel of a call. -/
inductive Chan (F : Type) where
  | empty
  | filled (ack : WsOrderAck F)
  /-- The sender was dropped without sending. -/
  | closed

/-- Where a call of `send_and_await` stands. -/
inductive Phase (F : Type) where
  /-- About to check `is_closed`. -/
  | checking
  /-- About to insert its sender into the pending map. -/
  | registering
  /-- About to push its frame into the outbound queue. -/
  | enqueueing
  /-- Waiting for its ack or its timeout. -/
  | awaiting
  /-- Failed, about to remove its `clientOid` from the pending map. -/
  | cleaning (error : CallError)
  | returned (result : Except CallError (WsOrderAck F))
  /-- Its future was dropped at an await point. -/
  | cancelled

/-- A call of `send_and_await`. -/
structure Call (F : Type) where
  clientOid : String
  frame : String
  phase : Phase F
  chan : Chan F

/-- The writer task. -/
inductive Writer where
  /-- In the `select!` between shutdown and the queue. -/
  | selecting
  /-- In `WsMsgGuard::check`, holding a dequeued frame. -/
  | throttled (frame : ℕ)
  /-- In the socket write of a frame. -/
  | sending (frame : ℕ)
  | storingClosed
  | signalling
  | closingSocket
  | terminated
  deriving DecidableEq, Repr

/-- The reader task. -/
inductive Reader (F : Type) where
  /-- In the `select!` between shutdown and the socket. -/
  | selecting
  /-- Waiting for the lock with a parsed ack. -/
  | routing (ack : WsOrderAck F)
  | storingClosed
  | signalling
  | draining
  | terminated

structure State (F : Type) where
  closed : Bool
  /-- `true` has been sent on the shutdown watch. -/
  shutdown : Bool
  /-- Calls of `close` between their two statements. -/
  closing : ℕ
  /-- A client handle is left. -/
  handles : Bool
  pending : ExtTreeMap String ℕ compare
  queue : List ℕ
  calls : List (Call F)
  writer : Writer
  reader : Reader F
  /-- The frames written to the socket, in order. -/
  written : List ℕ

/-- The client that `connect` returns. -/
def State.connect : State F where
  closed := false
  shutdown := false
  closing := 0
  handles := true
  pending := ∅
  queue := []
  calls := []
  writer := .selecting
  reader := .selecting
  written := []

/-! ## Operations on the shared state -/

/-- The receiver of the call's channel is alive. -/
def Phase.receiving : Phase F → Bool
  | .enqueueing => true
  | .awaiting => true
  | _ => false

/-- The call still runs. -/
def Phase.inFlight : Phase F → Bool
  | .returned _ => false
  | .cancelled => false
  | _ => true

def Call.setPhase (phase : Phase F) (call : Call F) : Call F := { call with phase := phase }

/-- `tx.send(ack)`: lost when the receiver is gone. -/
def Call.send (ack : WsOrderAck F) (call : Call F) : Call F :=
  match call.chan with
  | .empty => if call.phase.receiving then { call with chan := .filled ack } else call
  | _ => call

/-- Drop the sender of the call's channel. -/
def Call.dropSender (call : Call F) : Call F :=
  match call.chan with
  | .empty => { call with chan := .closed }
  | _ => call

def State.modifyCall (s : State F) (c : ℕ) (f : Call F → Call F) : State F :=
  { s with calls := s.calls.modify c f }

/-- `pending.remove(oid)`, with what becomes of the sender that it returns. -/
def State.removePending (s : State F) (oid : String) (f : Call F → Call F) : State F :=
  { s with
    pending := s.pending.erase oid
    calls := match s.pending[oid]? with
      | some c => s.calls.modify c f
      | none => s.calls }

/-- `pending.insert(oid, tx)`; the sender it replaces is dropped. -/
def State.insertPending (s : State F) (oid : String) (c : ℕ) : State F :=
  let s := s.removePending oid Call.dropSender
  { s with pending := s.pending.insert oid c }

/-- Send an ack to every pending request and empty the map. -/
def State.drainPending (s : State F) (ack : WsOrderAck F) : State F :=
  { s with
    pending := ∅
    calls :=
      s.pending.toList.foldl (fun calls entry => calls.modify entry.2 (Call.send ack)) s.calls }

/-! ## Steps -/

inductive Action where
  | start (clientOid frame : String)
  | checkClosed (c : ℕ)
  | insert (c : ℕ)
  | trySend (c : ℕ)
  /-- The await ends because the channel is ready. -/
  | receive (c : ℕ)
  | timeout (c : ℕ)
  | cleanUp (c : ℕ)
  | cancel (c : ℕ)
  | closeStore
  | closeSignal
  /-- The last client handle is dropped. -/
  | dropHandles
  | writerShutdown
  | writerRecv
  | writerQueueClosed
  | writerChecked
  | writerSent
  /-- The socket write fails; the frame may have gone out. -/
  | writerFailed (wrote : Bool)
  | writerStore
  | writerSignal
  | writerClose
  | readerShutdown
  | readerText (raw : String)
  | readerOther
  | readerEnd
  | readerRoute
  | readerStore
  | readerSignal
  | readerDrain

/-- A step of call `c`, if it is in a phase in which `f` is defined. -/
def State.stepCall (s : State F) (c : ℕ) (f : Call F → Option (State F)) : Option (State F) :=
  s.calls[c]?.bind f

/-- One step; `none` when the action is not enabled. `fromStr` is `serde_json::from_str`. -/
def step (fromStr : String → Option (Value F)) (s : State F) : Action → Option (State F)
  | .start clientOid frame =>
    if s.handles then some { s with calls := s.calls ++ [⟨clientOid, frame, .checking, .empty⟩] }
    else none
  | .checkClosed c => s.stepCall c fun call =>
    match call.phase with
    | .checking =>
      if s.closed then some (s.modifyCall c (.setPhase (.returned (.error .connectionClosed))))
      else some (s.modifyCall c (.setPhase .registering))
    | _ => none
  | .insert c => s.stepCall c fun call =>
    match call.phase with
    | .registering =>
      some ((s.insertPending call.clientOid c).modifyCall c (.setPhase .enqueueing))
    | _ => none
  | .trySend c => s.stepCall c fun call =>
    match call.phase with
    | .enqueueing =>
      -- the queue is closed once the writer task has dropped its receiver
      if s.writer = .terminated then
        some (s.modifyCall c (.setPhase (.cleaning .writerClosed)))
      else if OUTBOUND_QUEUE_CAPACITY ≤ s.queue.length then
        some (s.modifyCall c (.setPhase (.cleaning .queueFull)))
      else
        some { s.modifyCall c (.setPhase .awaiting) with queue := s.queue ++ [c] }
    | _ => none
  | .receive c => s.stepCall c fun call =>
    match call.phase, call.chan with
    | .awaiting, .filled ack => some (s.modifyCall c (.setPhase (.returned (.ok ack))))
    | .awaiting, .closed => some (s.modifyCall c (.setPhase (.cleaning .channelClosed)))
    | _, _ => none
  | .timeout c => s.stepCall c fun call =>
    -- a timeout polls the channel before it gives up
    match call.phase, call.chan with
    | .awaiting, .empty => some (s.modifyCall c (.setPhase (.cleaning .timedOut)))
    | _, _ => none
  | .cleanUp c => s.stepCall c fun call =>
    match call.phase with
    | .cleaning error =>
      some ((s.removePending call.clientOid Call.dropSender).modifyCall c
        (.setPhase (.returned (.error error))))
    | _ => none
  | .cancel c => s.stepCall c fun call =>
    -- the await points: the two locks and the channel
    match call.phase with
    | .registering | .awaiting | .cleaning _ => some (s.modifyCall c (.setPhase .cancelled))
    | _ => none
  | .closeStore =>
    if s.handles then some { s with closed := true, closing := s.closing + 1 } else none
  | .closeSignal =>
    if 0 < s.closing then some { s with shutdown := true, closing := s.closing - 1 } else none
  | .dropHandles =>
    if s.calls.all (fun call => !call.phase.inFlight) ∧ s.closing = 0 then
      some { s with handles := false }
    else none
  | .writerShutdown =>
    if s.writer = .selecting ∧ s.shutdown then some { s with writer := .storingClosed } else none
  | .writerRecv =>
    match s.writer, s.queue with
    | .selecting, frame :: rest => some { s with writer := .throttled frame, queue := rest }
    | _, _ => none
  | .writerQueueClosed =>
    if s.writer = .selecting ∧ s.queue = [] ∧ s.handles = false then
      some { s with writer := .storingClosed }
    else none
  | .writerChecked =>
    match s.writer with
    | .throttled frame => some { s with writer := .sending frame }
    | _ => none
  | .writerSent =>
    match s.writer with
    | .sending frame => some { s with writer := .selecting, written := s.written ++ [frame] }
    | _ => none
  | .writerFailed wrote =>
    match s.writer with
    | .sending frame =>
      some { s with
        writer := .storingClosed
        written := if wrote then s.written ++ [frame] else s.written }
    | _ => none
  | .writerStore =>
    if s.writer = .storingClosed then some { s with writer := .signalling, closed := true }
    else none
  | .writerSignal =>
    if s.writer = .signalling then some { s with writer := .closingSocket, shutdown := true }
    else none
  | .writerClose =>
    -- the task ends: its receiver is dropped, and with it what is queued
    if s.writer = .closingSocket then some { s with writer := .terminated, queue := [] } else none
  | .readerShutdown =>
    match s.reader with
    | .selecting => if s.shutdown then some { s with reader := .storingClosed } else none
    | _ => none
  | .readerText raw =>
    match s.reader with
    | .selecting =>
      match parseInbound fromStr raw with
      | some ack => some { s with reader := .routing ack }
      | none => some s
    | _ => none
  | .readerOther =>
    match s.reader with
    | .selecting => some s
    | _ => none
  | .readerEnd =>
    match s.reader with
    | .selecting => some { s with reader := .storingClosed }
    | _ => none
  | .readerRoute =>
    match s.reader with
    | .routing ack =>
      some { s.removePending ack.clientOid (Call.send ack) with reader := .selecting }
    | _ => none
  | .readerStore =>
    match s.reader with
    | .storingClosed => some { s with reader := .signalling, closed := true }
    | _ => none
  | .readerSignal =>
    match s.reader with
    | .signalling => some { s with reader := .draining, shutdown := true }
    | _ => none
  | .readerDrain =>
    match s.reader with
    | .draining => some { s.drainPending .connectionClosed with reader := .terminated }
    | _ => none

end ExchangeApiws.Native.WsOrders
