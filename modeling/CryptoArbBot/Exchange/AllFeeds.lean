import CryptoArbBot.Exchange.BinanceWs
import CryptoArbBot.Exchange.FeedBooks

/-!
# The feeds of all five exchanges

What a message comes down to, for each exchange. Binance sends whole books under the
name of their stream and calls back with its lock held; a message without a stream
leaves its thread waiting for that lock and hands nothing over.
-/

namespace CryptoArbBot

theorem ok_bind {α β : Type} (a : α) (f : α → Except String β) : (Except.ok a >>= f) = f a := rfl

/-! ### Binance -/

namespace BinanceWs

variable {σ : Type} (R : Readers)

def symbolOf (stream : String) : String := String.ofList (stream.toList.takeWhile (· ≠ '@'))

/-- The snapshot of a message of a combined stream. -/
def readStream (msg : String) : Except String (Option OrderBookSnapshot) := do
  let j ← R.parse msg
  if j.contains "stream" then
    let stream ← ((j.member? "stream").getD .null).getString
    if "@depth".toList <:+: stream.toList then
      let snap ← readSnapshot R ((j.member? "data").getD j) (symbolOf stream)
      .ok (some snap)
    else .ok none
  else .ok none

def items (msg : String) : List FeedItem :=
  itemsOf ((readStream R msg).map (Option.map fun snap => { snap with }))

def call (ws : BinanceWs σ) (snap : OrderBookSnapshot) (world : σ) : Except Thrown Unit × σ :=
  match ws.callbacks.find? fun entry => entry.1 = snap.pair with
  | some (_, callback) => callback snap world
  | none => (.ok (), world)

def handOver (ws : BinanceWs σ) (snap : Option OrderBookSnapshot) (world : σ) : σ :=
  match snap with
  | some snap => (ws.call snap world).2
  | none => world

theorem catchStd_snd {x : MutexAct σ Unit} (s : LockState σ) : (MutexAct.catchStd x s).2 = (x s).2 := by
  unfold MutexAct.catchStd
  split
  next heq => rw [heq]
  next => rfl

theorem readSnapshot_pair {j : Json} {symbol : String} {snap : OrderBookSnapshot}
    (h : readSnapshot R j symbol = .ok snap) : snap.pair = symbol := by
  obtain ⟨_, _, h⟩ := bind_eq_ok.mp h
  obtain ⟨_, _, h⟩ := bind_eq_ok.mp h
  obtain ⟨_, _, h⟩ := bind_eq_ok.mp h
  cases h
  rfl

theorem parseDepthSnapshot_world (ws : BinanceWs σ) (j : Json) (symbol : String) (world : σ) :
    (parseDepthSnapshot R ws j symbol ⟨false, world⟩).2 =
      ⟨false, ws.handOver (readSnapshot R j symbol).toOption world⟩ := by
  rw [parseDepthSnapshot, catchStd_snd, MutexAct.bind_apply]
  cases hread : readSnapshot R j symbol with
  | error what => rfl
  | ok snap =>
    obtain rfl := readSnapshot_pair R hread
    simp only [MutexAct.throws, MutexAct.lockGuard, Except.toOption, handOver, call]
    rw [if_neg Bool.false_ne_true]
    cases ws.callbacks.find? fun entry => entry.1 = snap.pair with
    | none => rfl
    | some entry => rcases hcall : entry.2 snap world with ⟨_ | _, world'⟩ <;>
        simp [MutexAct.outside, hcall]

/-- A snapshot that cannot be read leaves the lock to the scope that has it. -/
theorem parseDepthSnapshot_unread (ws : BinanceWs σ) {j : Json} {symbol : String}
    (h : ¬ SnapshotReadable R j) (s : LockState σ) : parseDepthSnapshot R ws j symbol s = (.ok (), s) := by
  rw [← readSnapshot_iff R j symbol] at h
  unfold parseDepthSnapshot MutexAct.catchStd
  rw [MutexAct.bind_apply]
  cases hread : readSnapshot R j symbol with
  | ok snap => exact absurd ⟨snap, hread⟩ h
  | error what => rfl

/-- The message is handled as its snapshot is, unless it takes the single-stream form. -/
theorem onMessage_world (ws : BinanceWs σ) {msg : String} (h : ¬ SingleStream R ws msg) (world : σ) :
    (onMessage R ws msg ⟨false, world⟩).2 =
      ⟨false, ws.handOver (readStream R msg).toOption.join world⟩ := by
  rw [onMessage, catchStd_snd, MutexAct.bind_apply, readStream]
  cases hparse : R.parse msg with
  | error what => rfl
  | ok j =>
    rw [ok_bind, MutexAct.throws]
    dsimp only
    by_cases hstream : j.contains "stream" = true
    · rw [if_pos hstream, if_pos hstream, MutexAct.bind_apply]
      cases ((j.member? "stream").getD .null).getString with
      | error what => rfl
      | ok stream =>
        rw [ok_bind, MutexAct.throws]
        dsimp only
        split
        · rw [parseDepthSnapshot_world, ← symbolOf]
          cases readSnapshot R ((j.member? "data").getD j) (symbolOf stream) with
          | error what => rfl
          | ok snap => rfl
        · rfl
    · rw [if_neg hstream, if_neg hstream]
      split
      next hsingle =>
        obtain ⟨hid, hbids⟩ := Bool.and_eq_true_iff.mp hsingle
        unfold MutexAct.lockGuard
        rw [if_neg Bool.false_ne_true]
        cases hcallbacks : ws.callbacks with
        | nil => rfl
        | cons entry entries =>
          have hcalled : ws.callbacks ≠ [] := by
            rw [hcallbacks]
            exact List.cons_ne_nil entry entries
          have hunread : ¬ SnapshotReadable R j := fun hread =>
            h ⟨j, hparse, hstream, hid, hbids, hcalled, hread⟩
          dsimp only
          rw [parseDepthSnapshot_unread R ws hunread]
          rfl
      next => rfl

end BinanceWs

/-! ### The five feeds -/

/-- A connection as the bot sees it: what a message received at some time comes down to,
and the name a pair is subscribed under. -/
structure Feed where
  items : TimePoint → String → List FeedItem
  symbol : String → String

def DepthVenue.feed (venue : DepthVenue) (R : FeedReaders) (a : Adapter) : Feed where
  items now text := venue.items (R.at now) text
  symbol pair := venue.venue.normalizePair a pair

/-- `subscribe_depth` of Binance keys the callback by the lower-case name. -/
def BinanceWs.feed (R : FeedReaders) (a : Adapter) : Feed where
  items now text := BinanceWs.items (R.at now).toReaders text
  symbol pair := (Binance.normalizePair a pair).map Char.toLower

def liveFeeds (R : FeedReaders) (adapters : Exchange → Adapter) : Exchange → Feed
  | .binance => BinanceWs.feed R (adapters .binance)
  | .okx => DepthVenue.okx.feed R (adapters .okx)
  | .bybit => DepthVenue.bybit.feed R (adapters .bybit)
  | .mexc => DepthVenue.mexc.feed R (adapters .mexc)
  | .gateio => DepthVenue.gateio.feed R (adapters .gateio)
  -- the factory makes no adapter for it
  | .count => ⟨fun _ _ => [], id⟩

end CryptoArbBot
