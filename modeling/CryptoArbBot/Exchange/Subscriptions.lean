import CryptoArbBot.Exchange.Json
import CryptoArbBot.Library.Interleaving

/-!
# Depth subscriptions (bybit_ws.cpp, okx_ws.cpp, mexc_ws.cpp, gateio_ws.cpp)

The four clients differ in their messages only. Calls of `subscribe_depth` and
`unsubscribe_depth` run beside the io thread, which opens and closes connections
and runs `on_connected`. A section under `mutex_`, a load or a store of
`connected_` and a write to the connection are one step each. The client may have
several connections; they share `connected_`, and all messages go to the newest.
-/

namespace CryptoArbBot

open Json (ofInitializerList)

/-! ### Messages -/

/-- The messages of a client, before `dump`, at a time in seconds. -/
structure DepthClient where
  /-- What `on_connected` sends for the symbols of `pending_subs_`. -/
  connectMessages : ℤ → List String → List Json
  subscribeMessage : ℤ → String → Json
  unsubscribeMessage : ℤ → String → Json
  Subscribes : Json → String → Prop
  connect_subscribes : ∀ now pending, ∀ symbol ∈ pending,
    ∃ msg ∈ connectMessages now pending, Subscribes msg symbol
  subscribe_subscribes : ∀ now symbol, Subscribes (subscribeMessage now symbol) symbol

def topicsMessage (opKey op topicsKey : String) (topics : List String) : Json :=
  ofInitializerList [(opKey, .string op), (topicsKey, .array (topics.map .string))]

def ListsTopic (opKey op topicsKey : String) (msg : Json) (topic : String) : Prop :=
  msg.member? opKey = some (.string op) ∧
    ∃ topics, msg.member? topicsKey = some (.array topics) ∧ .string topic ∈ topics

theorem topicsMessage_lists {opKey op topicsKey : String} (hkeys : opKey ≠ topicsKey)
    {topics : List String} {topic : String} (h : topic ∈ topics) :
    ListsTopic opKey op topicsKey (topicsMessage opKey op topicsKey topics) topic := by
  refine ⟨?_, topics.map .string, ?_, List.mem_map_of_mem h⟩
  · simp [topicsMessage, Json.member?_ofInitializerList]
  · simp [topicsMessage, Json.member?_ofInitializerList, hkeys]

namespace BybitWs

def topic (symbol : String) : String := "orderbook.50." ++ symbol

def opMessage (op : String) (symbols : List String) : Json :=
  topicsMessage "op" op "args" (symbols.map topic)

def client : DepthClient where
  connectMessages _ pending := [opMessage "subscribe" pending]
  subscribeMessage _ symbol := opMessage "subscribe" [symbol]
  unsubscribeMessage _ symbol := opMessage "unsubscribe" [symbol]
  Subscribes msg symbol := ListsTopic "op" "subscribe" "args" msg (topic symbol)
  connect_subscribes _ _ _ h :=
    ⟨_, List.mem_singleton_self _, topicsMessage_lists (by decide) (List.mem_map_of_mem h)⟩
  subscribe_subscribes _ _ := topicsMessage_lists (by decide) (List.mem_singleton_self _)

end BybitWs

namespace OkxWs

def opMessage (op instId : String) : Json :=
  ofInitializerList [("op", .string op),
    ("args", .array [ofInitializerList [("channel", .string "books5"), ("instId", .string instId)]])]

def Subscribes (msg : Json) (instId : String) : Prop :=
  msg.member? "op" = some (.string "subscribe") ∧
    ∃ args, msg.member? "args" = some (.array args) ∧ ∃ arg ∈ args,
      arg.member? "channel" = some (.string "books5") ∧ arg.member? "instId" = some (.string instId)

theorem opMessage_subscribes (instId : String) :
    Subscribes (opMessage "subscribe" instId) instId := by
  refine ⟨?_, [ofInitializerList [("channel", .string "books5"), ("instId", .string instId)]], ?_,
    _, List.mem_singleton_self _, ?_, ?_⟩
  all_goals simp [opMessage, Json.member?_ofInitializerList]

def client : DepthClient where
  connectMessages _ pending := pending.map (opMessage "subscribe")
  subscribeMessage _ instId := opMessage "subscribe" instId
  unsubscribeMessage _ instId := opMessage "unsubscribe" instId
  Subscribes := Subscribes
  connect_subscribes _ _ instId h := ⟨_, List.mem_map_of_mem h, opMessage_subscribes instId⟩
  subscribe_subscribes _ instId := opMessage_subscribes instId

end OkxWs

namespace MexcWs

def topic (symbol : String) : String := "spot@public.limit.depth.v3.api@" ++ symbol ++ "@20"

def methodMessage (method : String) (symbols : List String) : Json :=
  topicsMessage "method" method "params" (symbols.map topic)

def client : DepthClient where
  connectMessages _ pending := [methodMessage "SUBSCRIPTION" pending]
  subscribeMessage _ symbol := methodMessage "SUBSCRIPTION" [symbol]
  unsubscribeMessage _ symbol := methodMessage "UNSUBSCRIPTION" [symbol]
  Subscribes msg symbol := ListsTopic "method" "SUBSCRIPTION" "params" msg (topic symbol)
  connect_subscribes _ _ _ h :=
    ⟨_, List.mem_singleton_self _, topicsMessage_lists (by decide) (List.mem_map_of_mem h)⟩
  subscribe_subscribes _ _ := topicsMessage_lists (by decide) (List.mem_singleton_self _)

end MexcWs

namespace GateioWs

def eventMessage (event : String) (secs : ℤ) (pair : String) : Json :=
  ofInitializerList [("time", .integer secs), ("channel", .string "spot.order_book"),
    ("event", .string event), ("payload", .array [.string pair, .string "20", .string "100ms"])]

def Subscribes (msg : Json) (pair : String) : Prop :=
  msg.member? "channel" = some (.string "spot.order_book") ∧
    msg.member? "event" = some (.string "subscribe") ∧
    msg.member? "payload" = some (.array [.string pair, .string "20", .string "100ms"])

theorem eventMessage_subscribes (secs : ℤ) (pair : String) :
    Subscribes (eventMessage "subscribe" secs pair) pair := by
  refine ⟨?_, ?_, ?_⟩
  all_goals simp [eventMessage, Json.member?_ofInitializerList]

def client : DepthClient where
  connectMessages secs pending := pending.map (eventMessage "subscribe" secs)
  subscribeMessage secs pair := eventMessage "subscribe" secs pair
  unsubscribeMessage secs pair := eventMessage "unsubscribe" secs pair
  Subscribes := Subscribes
  connect_subscribes secs _ pair h := ⟨_, List.mem_map_of_mem h, eventMessage_subscribes secs pair⟩
  subscribe_subscribes secs pair := eventMessage_subscribes secs pair

end GateioWs

inductive DepthVenue where
  | bybit
  | okx
  | mexc
  | gateio
deriving DecidableEq

def DepthVenue.client : DepthVenue → DepthClient
  | .bybit => BybitWs.client
  | .okx => OkxWs.client
  | .mexc => MexcWs.client
  | .gateio => GateioWs.client

/-! ### The threads -/

/-- A lost connection is one whose close handler has not run. -/
inductive Link where
  | closed
  | connecting
  | opened
  | lost
deriving DecidableEq

/-- The connection of `connection_hdl_`, or one that it named before, the latest first. -/
inductive WsConnection where
  | current
  | older (i : ℕ)
deriving DecidableEq

/-- The io thread between two handlers, in `on_open`, or in `on_connected` where it
holds `mutex_` from its first send to its last. -/
inductive FeedIo where
  | idle
  | storeConnected
  | lock
  | send (msgs : List Json)
  | write (msg : Json) (msgs : List Json)

def FeedIo.locked : FeedIo → Bool
  | .send _ | .write _ _ => true
  | .idle | .storeConnected | .lock => false

def FeedIo.free : FeedIo → Bool
  | .idle => true
  | .storeConnected | .lock | .send _ | .write _ _ => false

/-- `link` is the current connection, and `sent` holds what went out on it since it opened. -/
structure DepthFeed where
  pending : List String := []
  connected : Bool := false
  link : Link := .closed
  older : List Link := []
  sent : List Json := []
  io : FeedIo := .idle
  now : ℤ := 0

inductive DepthRequest where
  | subscribe (symbol : String)
  | unsubscribe (symbol : String)

inductive DepthCall where
  -- `subscribe_depth`
  | register (symbol : String)
  | isConnected (symbol : String)
  | send (symbol : String)
  | write (symbol : String) (msg : Json)
  -- `unsubscribe_depth`
  | sendUnsubscribe (symbol : String)
  | writeUnsubscribe (symbol : String) (msg : Json)
  | erase (symbol : String)
  | returned

inductive FeedEvent where
  | clock (now : ℤ)
  -- `connect` or `reconnect_loop` sets `connection_hdl_` and connects
  | dial
  | opened (conn : WsConnection)
  | lost (conn : WsConnection)
  -- `on_close`
  | closed (conn : WsConnection)
  -- `on_fail`
  | failed (conn : WsConnection)
  | io

namespace DepthFeed

/-- `client_.send`; on a connection that is not open it only gives an error code. -/
def clientSend (feed : DepthFeed) (msg : Json) : DepthFeed :=
  if feed.link = .opened then { feed with sent := feed.sent ++ [msg] } else feed

def ioStep (client : DepthClient) (feed : DepthFeed) : DepthFeed :=
  match feed.io with
  | .idle => feed
  | .storeConnected => { feed with connected := true, io := .lock }
  | .lock =>
    if feed.pending = [] then { feed with io := .idle }
    else { feed with io := .send (client.connectMessages feed.now feed.pending) }
  | .send [] => { feed with io := .idle }
  | .send (msg :: msgs) => { feed with io := if feed.connected then .write msg msgs else .send msgs }
  | .write msg msgs => { feed.clientSend msg with io := .send msgs }

def linkOf (feed : DepthFeed) : WsConnection → Link
  | .current => feed.link
  | .older i => feed.older.getD i .closed

def setLink (feed : DepthFeed) (link : Link) : WsConnection → DepthFeed
  | .current => { feed with link }
  | .older i => { feed with older := feed.older.set i link }

/-- The io thread can run a handler for a connection in this state. -/
def canHandle (feed : DepthFeed) (link : Link) (conn : WsConnection) : Bool :=
  feed.io.free && decide (feed.linkOf conn = link)

def happens (client : DepthClient) (feed : DepthFeed) : FeedEvent → DepthFeed
  | .clock now => { feed with now }
  | .dial => { feed with link := .connecting, older := feed.link :: feed.older, sent := [] }
  | .opened conn =>
    if feed.canHandle .connecting conn then { feed.setLink .opened conn with io := .storeConnected }
    else feed
  | .lost conn => if feed.linkOf conn = .opened then feed.setLink .lost conn else feed
  | .closed conn =>
    if feed.canHandle .lost conn then { feed.setLink .closed conn with connected := false } else feed
  | .failed conn =>
    if feed.canHandle .connecting conn then { feed.setLink .closed conn with connected := false }
    else feed
  | .io => feed.ioStep client

/-- The next section of a call; it waits for `mutex_` in its place. -/
def advance (client : DepthClient) (feed : DepthFeed) : DepthCall → DepthFeed × DepthCall
  | .register symbol =>
    if feed.io.locked then (feed, .register symbol)
    else ({ feed with pending := feed.pending ++ [symbol] }, .isConnected symbol)
  | .isConnected symbol => (feed, if feed.connected then .send symbol else .returned)
  | .send symbol =>
    (feed,
      if feed.connected then .write symbol (client.subscribeMessage feed.now symbol) else .returned)
  | .write _ msg => (feed.clientSend msg, .returned)
  | .sendUnsubscribe symbol =>
    (feed,
      if feed.connected then .writeUnsubscribe symbol (client.unsubscribeMessage feed.now symbol)
      else .erase symbol)
  | .writeUnsubscribe symbol msg => (feed.clientSend msg, .erase symbol)
  | .erase symbol =>
    if feed.io.locked then (feed, .erase symbol)
    else ({ feed with pending := feed.pending.filter (· ≠ symbol) }, .returned)
  | .returned => (feed, .returned)

end DepthFeed

def DepthClient.program (client : DepthClient) :
    Interleaving.Program DepthFeed DepthRequest DepthCall FeedEvent where
  fresh
    | .subscribe symbol => .register symbol
    | .unsubscribe symbol => .sendUnsubscribe symbol
  advance := DepthFeed.advance client
  atomic := DepthFeed.happens client

end CryptoArbBot
