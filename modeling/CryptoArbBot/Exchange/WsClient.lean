import CryptoArbBot.Library.Runs
import CryptoArbBot.Library.StdThread

/-!
# The WebSocket client (exchange/ws_client.cpp)

The io thread runs the io_service and its handlers, the reconnect thread runs
`reconnect_loop`, the caller runs `connect`, `disconnect` and the destructor. Each
load and store of a flag, each test of a thread object, each join and each call
into the io_service is one step. A step of a thread that is blocked changes
nothing.
-/

namespace CryptoArbBot

namespace WsClient

/-- In `client_.run()`, or in `on_close` or `on_fail` after `connected_.store(false)`. -/
inductive IoPlace where
  | run
  | loadAuto
  | loadShutdown
  | testReconnect
  | joinReconnect
  | assignReconnect
deriving DecidableEq

inductive ReconnectPlace where
  -- the condition of the loop
  | loadShutdown
  | loadAuto
  | loadConnected
  -- asleep, then the load before `break`
  | backOff
  | reset
  | getConnection
  | connect
  | testIo
  | joinIo
  | assignIo
  | wait
deriving DecidableEq

inductive CallerPlace where
  | idle
  -- `connect`
  | getConnection
  | connect
  | testIo
  | joinIo
  | assignIo
  -- `disconnect`
  | storeAuto
  | close
  | stop
  | lastTestIo
  | lastJoinIo
  | testReconnect
  | joinReconnect
  | storeConnected
  | returned
  -- the members of the client are destroyed
  | destroyed
deriving DecidableEq

def kInitialReconnectDelayMs : ℕ := 1000

def kMaxReconnectDelayMs : ℕ := 30000

end WsClient

open WsClient

/-- `stopped` is the flag of the io_service; `pending` and `established` count its
connections before and after they open. `terminated` stands for `std::terminate`. -/
structure WsClient where
  connected : Bool := false
  shuttingDown : Bool := false
  autoReconnect : Bool := true
  reconnectDelayMs : ℕ := kInitialReconnectDelayMs
  stopped : Bool := false
  pending : ℕ := 0
  established : ℕ := 0
  ioThread : Thread IoPlace := .none
  reconnectThread : Thread ReconnectPlace := .none
  caller : CallerPlace := .idle
  terminated : Bool := false

namespace WsClient

/-! ### Thread objects -/

def joinIo (s : WsClient) (next : WsClient → WsClient) : WsClient :=
  s.ioThread.join { s with terminated := true } s (next { s with ioThread := .none })

def assignIo (s : WsClient) (next : WsClient → WsClient) : WsClient :=
  s.ioThread.assign { s with terminated := true } (next { s with ioThread := .running .run })

def joinReconnect (s : WsClient) (next : WsClient → WsClient) : WsClient :=
  s.reconnectThread.join { s with terminated := true } s (next { s with reconnectThread := .none })

def assignReconnect (s : WsClient) (next : WsClient → WsClient) : WsClient :=
  s.reconnectThread.assign { s with terminated := true }
    (next { s with reconnectThread := .running .loadShutdown })

/-! ### The io thread -/

def ioAt (s : WsClient) (place : IoPlace) : WsClient := { s with ioThread := .running place }

def onOpen (s : WsClient) : WsClient :=
  if s.ioThread = .running .run ∧ 0 < s.pending then
    { s with
      pending := s.pending - 1
      established := s.established + 1
      connected := true
      reconnectDelayMs := kInitialReconnectDelayMs }
  else s

def onClose (s : WsClient) : WsClient :=
  if s.ioThread = .running .run ∧ 0 < s.established then
    { s with
      established := s.established - 1
      connected := false
      ioThread := .running .loadAuto }
  else s

def onFail (s : WsClient) : WsClient :=
  if s.ioThread = .running .run ∧ 0 < s.pending then
    { s with
      pending := s.pending - 1
      connected := false
      ioThread := .running .loadAuto }
  else s

/-- The rest of `on_close` and of `on_fail`. -/
def handlerStep (s : WsClient) : WsClient :=
  match s.ioThread with
  | .running .loadAuto => s.ioAt (if s.autoReconnect then .loadShutdown else .run)
  | .running .loadShutdown => s.ioAt (if s.shuttingDown then .run else .testReconnect)
  | .running .testReconnect =>
    s.ioAt (if s.reconnectThread.joinable then .joinReconnect else .assignReconnect)
  | .running .joinReconnect => s.joinReconnect (·.ioAt .assignReconnect)
  | .running .assignReconnect => s.assignReconnect (·.ioAt .run)
  | .none | .running .run | .finished => s

/-- `run()` returns when the io_service is stopped or has no work, and leaves it
stopped. -/
def runReturns (s : WsClient) : WsClient :=
  if s.ioThread = .running .run ∧ (s.stopped = true ∨ s.pending = 0 ∧ s.established = 0) then
    { s with ioThread := .finished, stopped := true }
  else s

/-- An exception of a callback ends `run()`. -/
def callbackThrows (s : WsClient) : WsClient :=
  if s.ioThread = .running .run ∨ s.ioThread = .running .loadAuto then
    { s with ioThread := .finished }
  else s

/-! ### The reconnect thread -/

def reconnectAt (s : WsClient) (place : ReconnectPlace) : WsClient :=
  { s with reconnectThread := .running place }

def leaveLoop (s : WsClient) : WsClient := { s with reconnectThread := .finished }

/-- `obtained` tells whether `get_connection` succeeds. -/
def reconnectStep (s : WsClient) (obtained : Bool) : WsClient :=
  match s.reconnectThread with
  | .none | .finished => s
  | .running .loadShutdown => if s.shuttingDown then s.leaveLoop else s.reconnectAt .loadAuto
  | .running .loadAuto => if s.autoReconnect then s.reconnectAt .loadConnected else s.leaveLoop
  | .running .loadConnected => if s.connected then s.leaveLoop else s.reconnectAt .backOff
  | .running .backOff =>
    if s.shuttingDown then s.leaveLoop
    else
      { s with reconnectDelayMs := min (s.reconnectDelayMs * 2) kMaxReconnectDelayMs }.reconnectAt
        .reset
  | .running .reset => { s with stopped := false }.reconnectAt .getConnection
  | .running .getConnection => s.reconnectAt (if obtained then .connect else .loadShutdown)
  | .running .connect => { s with pending := s.pending + 1 }.reconnectAt .testIo
  | .running .testIo => s.reconnectAt (if s.ioThread.joinable then .joinIo else .assignIo)
  | .running .joinIo => s.joinIo (·.reconnectAt .assignIo)
  | .running .assignIo => s.assignIo (·.reconnectAt .wait)
  | .running .wait => s.reconnectAt .loadShutdown

/-! ### The caller -/

inductive Request where
  | connect
  | disconnect
deriving DecidableEq

def callerAt (s : WsClient) (place : CallerPlace) : WsClient := { s with caller := place }

/-- The first statement of a call, once the last one has returned. -/
def call (s : WsClient) (request : Request) : WsClient :=
  if s.caller = .idle ∨ s.caller = .returned then
    match request with
    | .connect =>
      { s with shuttingDown := false, reconnectDelayMs := kInitialReconnectDelayMs }.callerAt
        .getConnection
    | .disconnect => { s with shuttingDown := true }.callerAt .storeAuto
  else s

/-- The next statement of the call. Closing the connection only asks for a later
close event. -/
def callerStep (s : WsClient) (obtained : Bool) : WsClient :=
  match s.caller with
  | .idle | .returned | .destroyed => s
  | .getConnection => s.callerAt (if obtained then .connect else .idle)
  | .connect => { s with pending := s.pending + 1 }.callerAt .testIo
  | .testIo => s.callerAt (if s.ioThread.joinable then .joinIo else .assignIo)
  | .joinIo => s.joinIo (·.callerAt .assignIo)
  | .assignIo => s.assignIo (·.callerAt .idle)
  | .storeAuto => { s with autoReconnect := false }.callerAt .close
  | .close => s.callerAt .stop
  | .stop => { s with stopped := true }.callerAt .lastTestIo
  | .lastTestIo => s.callerAt (if s.ioThread.joinable then .lastJoinIo else .testReconnect)
  | .lastJoinIo => s.joinIo (·.callerAt .testReconnect)
  | .testReconnect =>
    s.callerAt (if s.reconnectThread.joinable then .joinReconnect else .storeConnected)
  | .joinReconnect => s.joinReconnect (·.callerAt .storeConnected)
  | .storeConnected => { s with connected := false }.callerAt .returned

def setAutoReconnect (s : WsClient) (enabled : Bool) : WsClient :=
  if s.caller = .idle ∨ s.caller = .returned then { s with autoReconnect := enabled } else s

/-- The end of the destructor: destroying a joinable thread object terminates. -/
def destroyMembers (s : WsClient) : WsClient :=
  if s.caller = .returned then
    if s.ioThread.joinable || s.reconnectThread.joinable then { s with terminated := true }
    else s.callerAt .destroyed
  else s

/-! ### The system -/

inductive Event where
  | call (request : Request)
  | setAutoReconnect (enabled : Bool)
  | caller (obtained : Bool)
  | destroyMembers
  | opened
  | closed
  | failed
  | handler
  | runReturns
  | callbackThrows
  | reconnect (obtained : Bool)
deriving DecidableEq

def step (s : WsClient) (event : Event) : WsClient :=
  if s.terminated then s
  else
    match event with
    | .call request => s.call request
    | .setAutoReconnect enabled => s.setAutoReconnect enabled
    | .caller obtained => s.callerStep obtained
    | .destroyMembers => s.destroyMembers
    | .opened => s.onOpen
    | .closed => s.onClose
    | .failed => s.onFail
    | .handler => s.handlerStep
    | .runReturns => s.runReturns
    | .callbackThrows => s.callbackThrows
    | .reconnect obtained => s.reconnectStep obtained

/-! ### What a step has to show -/

section Rules
variable {P : WsClient → Prop} {s : WsClient}

theorem call_rule {request : Request} (hs : P s)
    (hconnect : P ({ s with
      shuttingDown := false
      reconnectDelayMs := kInitialReconnectDelayMs }.callerAt .getConnection))
    (hdisconnect : P ({ s with shuttingDown := true }.callerAt .storeAuto)) :
    P (s.call request) := by
  unfold call
  split
  · cases request with
    | connect => exact hconnect
    | disconnect => exact hdisconnect
  · exact hs

theorem setAutoReconnect_rule {enabled : Bool} (hs : P s)
    (hset : P { s with autoReconnect := enabled }) : P (s.setAutoReconnect enabled) := by
  unfold setAutoReconnect
  split
  · exact hset
  · exact hs

theorem destroyMembers_rule (hs : P s)
    (hterminated : s.caller = .returned → s.ioThread ≠ .none ∨ s.reconnectThread ≠ .none →
      P { s with terminated := true })
    (hdestroyed : s.caller = .returned → P (s.callerAt .destroyed)) : P s.destroyMembers := by
  unfold destroyMembers
  split
  next hreturned =>
    split
    next hjoinable =>
      refine hterminated hreturned ?_
      rwa [Bool.or_eq_true, Thread.joinable_iff, Thread.joinable_iff] at hjoinable
    next => exact hdestroyed hreturned
  next => exact hs

theorem onOpen_rule (hs : P s)
    (hopen : s.ioThread = .running .run → P { s with
      pending := s.pending - 1
      established := s.established + 1
      connected := true
      reconnectDelayMs := kInitialReconnectDelayMs }) : P s.onOpen := by
  unfold onOpen
  split
  next hrun => exact hopen hrun.1
  next => exact hs

theorem onClose_rule (hs : P s)
    (hclose : s.ioThread = .running .run ∧ 0 < s.established → P { s with
      established := s.established - 1
      connected := false
      ioThread := .running .loadAuto }) : P s.onClose := by
  unfold onClose
  split
  next hrun => exact hclose hrun
  next => exact hs

theorem onFail_rule (hs : P s)
    (hfail : s.ioThread = .running .run ∧ 0 < s.pending → P { s with
      pending := s.pending - 1
      connected := false
      ioThread := .running .loadAuto }) : P s.onFail := by
  unfold onFail
  split
  next hrun => exact hfail hrun
  next => exact hs

theorem runReturns_rule (hs : P s)
    (hreturn : s.ioThread = .running .run → P { s with ioThread := .finished, stopped := true }) :
    P s.runReturns := by
  unfold runReturns
  split
  next hrun => exact hreturn hrun.1
  next => exact hs

theorem callbackThrows_rule (hs : P s)
    (hthrow : s.ioThread = .running .run ∨ s.ioThread = .running .loadAuto →
      P { s with ioThread := .finished }) : P s.callbackThrows := by
  unfold callbackThrows
  split
  next hrun => exact hthrow hrun
  next => exact hs

end Rules

end WsClient

end CryptoArbBot
