import CryptoArbBot.Exchange.BinanceWs
import CryptoArbBot.Exchange.Subscriptions

/-!
# Depth messages of the other four feeds (bybit_ws.cpp, okx_ws.cpp, mexc_ws.cpp, gateio_ws.cpp)

`on_message` on the feed's thread. Each client reads the levels in its own way; a
snapshot goes to the callback of the symbol that the message names, with `mutex_`
held during the call.
-/

namespace CryptoArbBot

open Json (ofInitializerList)

/-- `OrderBookSnapshot` with its field `is_delta`. -/
structure FeedSnapshot extends OrderBookSnapshot where
  isDelta : Bool := false
  deriving DecidableEq

abbrev FeedCallback (σ : Type) := FeedSnapshot → σ → Except Thrown Unit × σ

/-- What a client sends: a text as it is or a value after `dump`. -/
inductive Frame where
  | text (s : String)
  | dump (j : Json)

structure DepthWs (σ : Type) where
  callbacks : List (String × FeedCallback σ) := []
  send : Frame → σ → σ

structure FeedReaders extends BinanceWs.Readers where
  stoull : String → Except String UInt64

variable {σ : Type}

namespace DepthWs

def subscribeDepth (ws : DepthWs σ) (symbol : String) (callback : FeedCallback σ) : DepthWs σ :=
  { ws with callbacks := (symbol, callback) :: ws.callbacks.filter fun entry => entry.1 ≠ symbol }

/-- The end of every `on_message`: the symbol is the snapshot's own pair. -/
def handOver (ws : DepthWs σ) (snap : FeedSnapshot) : MutexAct σ Unit :=
  .lockGuard <|
    match ws.callbacks.find? fun entry => entry.1 = snap.pair with
    | some (_, callback) => .outside (callback snap)
    | none => pure ()

def sendFrame (ws : DepthWs σ) (frame : Frame) : MutexAct σ Unit :=
  .outside fun world => (.ok (), ws.send frame world)

end DepthWs

/-! ### Levels -/

/-- The loop over one side; `read` gives nothing for a level that is passed over. -/
def readLevelsWith (read : Json → Except String (Option PriceLevel)) :
    List Json → Except String (List PriceLevel)
  | [] => .ok []
  | level :: levels => do
    let l ← read level
    let rest ← readLevelsWith read levels
    .ok (l.toList ++ rest)

def readSideWith (read : Json → Except String (Option PriceLevel)) (data : Json) (side : String) :
    Except String (List PriceLevel) :=
  match data.member? side with
  | some levels => readLevelsWith read levels.elements
  | none => .ok []

def ifPositive (l : PriceLevel) : Option PriceLevel := if l.quantity > 0 then some l else none

def Json.isArray : Json → Bool
  | .array _ => true
  | _ => false

/-- The first of two members that is there. -/
def readSequenceId (data : Json) (key fallback : String) : Except String UInt64 :=
  match data.member? key with
  | some v => v.getUint64
  | none =>
    match data.member? fallback with
    | some v => v.getUint64
    | none => .ok 0

/-- The value of a member that `contains` has found. -/
def Json.memberText (j : Json) (key : String) : Except String String :=
  ((j.member? key).getD .null).getString

def Json.isText (j : Json) (key text : String) : Bool :=
  match j.member? key with
  | some (.string s) => s = text
  | _ => false

variable (R : FeedReaders)

namespace FeedReaders

def sortBids (bids : List PriceLevel) : List PriceLevel :=
  R.sort.sort (fun a b => a.price > b.price) bids

def sortAsks (asks : List PriceLevel) : List PriceLevel :=
  R.sort.sort (fun a b => a.price < b.price) asks

end FeedReaders

/-! ### Bybit -/

namespace BybitWs

/-- Empty levels are kept: in a delta they remove a price. -/
def readLevel (level : Json) : Except String (Option PriceLevel) :=
  if 2 ≤ level.size then do
    let l ← BinanceWs.readLevel R.toReaders level
    .ok (some l)
  else .ok none

def readSnapshot (data : Json) (symbol : String) (isDelta : Bool) : Except String FeedSnapshot := do
  let bids ← readSideWith (readLevel R) data "b"
  let asks ← readSideWith (readLevel R) data "a"
  let sequenceId ← readSequenceId data "u" "seq"
  .ok {
    exchange := .bybit
    pair := symbol
    bids := if isDelta then bids else R.sortBids bids
    asks := if isDelta then asks else R.sortAsks asks
    sequenceId
    localTimestamp := R.now
    isDelta }

def topicPrefix : String := "orderbook.50."

def readMessage (j : Json) : Except String (Option FeedSnapshot) :=
  if !j.contains "topic" || !j.contains "data" then .ok none
  else do
    let topic ← j.memberText "topic"
    if topicPrefix.toList <+: topic.toList then
      let symbol := String.ofList (topic.toList.drop 13)
      let msgType ← j.valueString "type" "snapshot"
      let snap ← readSnapshot R ((j.member? "data").getD .null) symbol (msgType = "delta")
      .ok (some snap)
    else .ok none

def onMessage (ws : DepthWs σ) (msg : String) : MutexAct σ Unit :=
  .catchStd do
    let j ← MutexAct.throws (R.parse msg)
    if j.isText "op" "ping" then
      ws.sendFrame (.dump (ofInitializerList [("op", .string "pong")]))
    else
      let snap ← MutexAct.throws (readMessage R j)
      match snap with
      | some snap => ws.handOver snap
      | none => pure ()

end BybitWs

/-! ### OKX -/

namespace OkxWs

def readLevel (level : Json) : Except String (Option PriceLevel) :=
  if 2 ≤ level.size then do
    let l ← BinanceWs.readLevel R.toReaders level
    .ok (ifPositive l)
  else .ok none

/-- The time of an entry, a text, is its sequence id. -/
def readTs (data : Json) : Except String UInt64 :=
  if data.contains "ts" then do
    let ts ← data.memberText "ts"
    R.stoull ts
  else .ok 0

def readSnapshot (instId : String) (data : Json) : Except String FeedSnapshot := do
  let bids ← readSideWith (readLevel R) data "bids"
  let asks ← readSideWith (readLevel R) data "asks"
  let sequenceId ← readTs R data
  .ok {
    exchange := .okx
    pair := instId
    bids := R.sortBids bids
    asks := R.sortAsks asks
    sequenceId
    localTimestamp := R.now }

/-- The instrument and the entries of a `books5` message. -/
def readMessage (j : Json) : Except String (Option (String × List Json)) :=
  if j.contains "arg" && j.contains "data" then do
    let arg := (j.member? "arg").getD .null
    let channel ← arg.valueString "channel" ""
    if channel ≠ "books5" then .ok none
    else
      let instId ← arg.valueString "instId" ""
      if instId = "" then .ok none
      else .ok (some (instId, ((j.member? "data").getD .null).elements))
  else .ok none

/-- Each entry is read and handed over before the next one is read. -/
def handOverEntries (ws : DepthWs σ) (instId : String) : List Json → MutexAct σ Unit
  | [] => pure ()
  | data :: entries => do
    let snap ← MutexAct.throws (readSnapshot R instId data)
    ws.handOver snap
    handOverEntries ws instId entries

def onMessage (ws : DepthWs σ) (msg : String) : MutexAct σ Unit :=
  .catchStd do
    let j ← MutexAct.throws (R.parse msg)
    let entries ← MutexAct.throws (readMessage j)
    match entries with
    | some (instId, entries) => handOverEntries R ws instId entries
    | none => pure ()

end OkxWs

/-! ### MEXC -/

namespace MexcWs

def readLevel (level : Json) : Except String (Option PriceLevel) :=
  if level.contains "p" && level.contains "v" then do
    let price ← R.stod (← level.memberText "p")
    let quantity ← R.stod (← level.memberText "v")
    .ok (ifPositive { price, quantity })
  else if level.isArray && 2 ≤ level.size then do
    let l ← BinanceWs.readLevel R.toReaders level
    .ok (ifPositive l)
  else .ok none

/-- What stands between the third `@` and the fourth, or the end. -/
def symbolOf (channel : String) : Option String :=
  match channel.toList.splitOn '@' with
  | _ :: _ :: _ :: symbol :: _ => some (String.ofList symbol)
  | _ => none

/-- MEXC sends no sequence id. -/
def readSnapshot (data : Json) (symbol : String) : Except String FeedSnapshot := do
  let bids ← readSideWith (readLevel R) data "bids"
  let asks ← readSideWith (readLevel R) data "asks"
  .ok {
    exchange := .mexc
    pair := symbol
    bids := R.sortBids bids
    asks := R.sortAsks asks
    localTimestamp := R.now }

def readMessage (j : Json) : Except String (Option FeedSnapshot) :=
  if !j.contains "c" || !j.contains "d" then .ok none
  else do
    let channel ← j.memberText "c"
    match symbolOf channel with
    | none => .ok none
    | some symbol =>
      let snap ← readSnapshot R ((j.member? "d").getD .null) symbol
      .ok (some snap)

def onMessage (ws : DepthWs σ) (msg : String) : MutexAct σ Unit :=
  .catchStd do
    if msg = "ping" then ws.sendFrame (.text "pong")
    else
      let j ← MutexAct.throws (R.parse msg)
      match j.member? "ping" with
      | some value => ws.sendFrame (.dump (ofInitializerList [("pong", value)]))
      | none =>
        let snap ← MutexAct.throws (readMessage R j)
        match snap with
        | some snap => ws.handOver snap
        | none => pure ()

end MexcWs

/-! ### Gate.io -/

namespace GateioWs

/-- In a delta an empty level passes through. -/
def readLevel (isDelta : Bool) (level : Json) : Except String (Option PriceLevel) :=
  if level.isArray && 2 ≤ level.size then do
    let l ← BinanceWs.readLevel R.toReaders level
    .ok (if isDelta then some l else ifPositive l)
  else .ok none

def readSnapshot (result : Json) (currencyPair : String) (isDelta : Bool) :
    Except String FeedSnapshot := do
  let bids ← readSideWith (readLevel R isDelta) result "bids"
  let asks ← readSideWith (readLevel R isDelta) result "asks"
  let sequenceId ← readSequenceId result "t" "id"
  .ok {
    exchange := .gateio
    pair := currencyPair
    bids := R.sortBids bids
    asks := R.sortAsks asks
    sequenceId
    localTimestamp := R.now
    isDelta }

def readMessage (j : Json) : Except String (Option FeedSnapshot) :=
  if !j.contains "channel" || !j.contains "event" || !j.contains "result" then .ok none
  else do
    let channel ← j.memberText "channel"
    let event ← j.memberText "event"
    if channel ≠ "spot.order_book" then .ok none
    else if event ≠ "update" ∧ event ≠ "all" then .ok none
    else
      let result := (j.member? "result").getD .null
      if result.contains "s" then
        let currencyPair ← result.memberText "s"
        let snap ← readSnapshot R result currencyPair (event = "update")
        .ok (some snap)
      else if result.contains "currency_pair" then
        let currencyPair ← result.memberText "currency_pair"
        let snap ← readSnapshot R result currencyPair (event = "update")
        .ok (some snap)
      else .ok none

def onMessage (ws : DepthWs σ) (msg : String) : MutexAct σ Unit :=
  .catchStd do
    let j ← MutexAct.throws (R.parse msg)
    let snap ← MutexAct.throws (readMessage R j)
    match snap with
    | some snap => ws.handOver snap
    | none => pure ()

end GateioWs

def DepthVenue.onMessage (ws : DepthWs σ) (msg : String) : DepthVenue → MutexAct σ Unit
  | .bybit => BybitWs.onMessage R ws msg
  | .okx => OkxWs.onMessage R ws msg
  | .mexc => MexcWs.onMessage R ws msg
  | .gateio => GateioWs.onMessage R ws msg

end CryptoArbBot
