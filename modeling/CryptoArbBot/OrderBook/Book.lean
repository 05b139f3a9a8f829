import CryptoArbBot.Common.Types
import CryptoArbBot.Library.Seqlock
import CryptoArbBot.Library.StdAlgorithms
import Mathlib.Algebra.Order.Group.Unbundled.Abs
import Mathlib.Data.List.FinRange

/-!
# The order book (orderbook/order_book.cpp)

A book keeps its sorted sides under `mutex_` and publishes their first
`TOP_LEVELS` levels in fixed arrays that readers load under the counter
`seqlock_`. A writer call is given here with the list of its single writes in
program order; the sequential book executes them at once, the seqlock model one
by one. The sizes of the vectors and the counts of top levels, `int` in the
source, are natural numbers.
-/

namespace CryptoArbBot
open Seqlock

/-- The fields that the readers load without holding `mutex_`. -/
structure TopOfBook where
  topBids : Fin 20 → PriceLevel := fun _ => {}
  topAsks : Fin 20 → PriceLevel := fun _ => {}
  numTopBids : ℕ := 0
  numTopAsks : ℕ := 0
  lastSequenceId : UInt64 := 0
  lastUpdateTime : TimePoint

structure OrderBook where
  exchange : Exchange
  pair : String
  bids : List PriceLevel := []
  asks : List PriceLevel := []
  top : TopOfBook

def OrderBook.new (exchange : Exchange) (pair : String) (now : TimePoint) : OrderBook :=
  { exchange, pair, top := { lastUpdateTime := now } }

/-! ### Writers -/

/-- `sync_top_levels`: each count is written, then the levels below it. -/
def syncTopLevels (bids asks : List PriceLevel) : List (TopOfBook → TopOfBook) :=
  (fun m => { m with numTopBids := min 20 bids.length }) ::
    ((List.finRange 20).zip bids).map
      (fun p m => { m with topBids := Function.update m.topBids p.1 p.2 }) ++
  (fun m => { m with numTopAsks := min 20 asks.length }) ::
    ((List.finRange 20).zip asks).map
      (fun p m => { m with topAsks := Function.update m.topAsks p.1 p.2 })

/-- The common end of `apply_snapshot` and `apply_delta`: the sequence id is
written before the counter becomes odd. -/
def publish (bids asks : List PriceLevel) (sequenceId : UInt64) (now : TimePoint) :
    List (WriteOp TopOfBook) :=
  [.store fun m => { m with lastSequenceId := sequenceId }, .increment,
    .store fun m => { m with lastUpdateTime := now }] ++
  (syncTopLevels bids asks).map .store ++ [.increment]

def runStores (m : TopOfBook) (ops : List (WriteOp TopOfBook)) : TopOfBook :=
  ops.foldl (fun m op => match op with
    | .increment => m
    | .store f => f m) m

def priceTolerance : ℚ := 1 / 10 ^ 9

/-- The lambda `update_vec` of `apply_delta`. -/
def updateVec (vec : List PriceLevel) (level : PriceLevel) (descending : Bool) :
    List PriceLevel :=
  let cmp : PriceLevel → Bool :=
    if descending then fun a => decide (a.price > level.price)
    else fun a => decide (a.price < level.price)
  let it := lowerBound cmp vec
  let inserted := if level.quantity > 0 then vec.insertIdx it level else vec
  match vec[it]? with
  | none => inserted
  | some found =>
    if |found.price - level.price| < priceTolerance then
      if level.quantity ≤ 0 then vec.eraseIdx it
      else vec.set it { found with quantity := level.quantity }
    else inserted

inductive BookCall where
  | applySnapshot (bids asks : List PriceLevel) (sequenceId : UInt64) (now : TimePoint)
  | applyDelta (bidUpdates askUpdates : List PriceLevel) (sequenceId : UInt64) (now : TimePoint)
  deriving DecidableEq

def OrderBook.install (b : OrderBook) (bids asks : List PriceLevel) (sequenceId : UInt64)
    (now : TimePoint) : OrderBook × List (WriteOp TopOfBook) :=
  ({ b with
      bids := bids
      asks := asks
      top := runStores b.top (publish bids asks sequenceId now) },
    publish bids asks sequenceId now)

def OrderBook.applySnapshot (std : StdSort PriceLevel) (b : OrderBook)
    (bids asks : List PriceLevel) (sequenceId : UInt64) (now : TimePoint) :
    OrderBook × List (WriteOp TopOfBook) :=
  b.install
    (std.sort (fun a b => decide (a.price > b.price)) (bids.filter fun l => l.quantity > 0))
    (std.sort (fun a b => decide (a.price < b.price)) (asks.filter fun l => l.quantity > 0))
    sequenceId now

/-- A delta whose id is not newer than the last one is ignored; id 0 is never
checked. -/
def OrderBook.applyDelta (b : OrderBook) (bidUpdates askUpdates : List PriceLevel)
    (sequenceId : UInt64) (now : TimePoint) : OrderBook × List (WriteOp TopOfBook) :=
  if sequenceId ≠ 0 ∧ sequenceId ≤ b.top.lastSequenceId then (b, [])
  else
    b.install (bidUpdates.foldl (updateVec · · true) b.bids)
      (askUpdates.foldl (updateVec · · false) b.asks) sequenceId now

/-- What a writer call does to the protected data, with the writes it issues. -/
def OrderBook.start (std : StdSort PriceLevel) (call : BookCall) (b : OrderBook) :
    OrderBook × List (WriteOp TopOfBook) :=
  match call with
  | .applySnapshot bids asks sequenceId now => b.applySnapshot std bids asks sequenceId now
  | .applyDelta bids asks sequenceId now => b.applyDelta bids asks sequenceId now

def OrderBook.apply (std : StdSort PriceLevel) (b : OrderBook) (call : BookCall) : OrderBook :=
  (b.start std call).1

/-! ### Readers -/

def bestBid : Call TopOfBook (Option ℚ) (Option ℚ) where
  init := none
  body _ := .read (·.numTopBids) fun n =>
    if n > 0 then .read (fun m => (m.topBids 0).price) fun p => .done (some p) else .done none
  finish := id

def bestAsk : Call TopOfBook (Option ℚ) (Option ℚ) where
  init := none
  body _ := .read (·.numTopAsks) fun n =>
    if n > 0 then .read (fun m => (m.topAsks 0).price) fun p => .done (some p) else .done none
  finish := id

structure MidLocals where
  bb : ℚ := 0
  ba : ℚ := 0
  valid : Bool := false

/-- `mid_price`; the right operand of `&&` is loaded only when the left one holds. -/
def midPrice (exchange : Exchange) (pair : String) : Call TopOfBook MidLocals (Except String ℚ) where
  init := {}
  body l := .read (·.numTopBids) fun nb =>
    if nb > 0 then
      .read (·.numTopAsks) fun na =>
        if na > 0 then
          .read (fun m => (m.topBids 0).price) fun bb =>
            .read (fun m => (m.topAsks 0).price) fun ba => .done { bb, ba, valid := true }
        else .done { l with valid := false }
    else .done { l with valid := false }
  finish l :=
    if l.valid then .ok ((l.bb + l.ba) / 2)
    else .error ("Cannot compute mid price: empty order book for " ++ exchange.toString ++ ":" ++ pair)

def resize (vec : List PriceLevel) (n : ℕ) : List PriceLevel :=
  vec.take n ++ List.replicate (n - vec.length) ({} : PriceLevel)

/-- The loop `vec[i] = top[i]` over the given indices. Writing past the end of
the vector is undefined. -/
def copyLevels {σ : Type} (field : Fin 20 → TopOfBook → PriceLevel) :
    List (Fin 20) → List PriceLevel → (List PriceLevel → Body TopOfBook σ) → Body TopOfBook σ
  | [], vec, next => next vec
  | i :: is, vec, next => .read (field i) fun level =>
    if i.val < vec.length then copyLevels field is (vec.set i.val level) next else .undefined

structure SnapshotLocals where
  bids : List PriceLevel
  asks : List PriceLevel
  sequenceId : UInt64 := 0
  localTimestamp : TimePoint := 0

/-- The loop of `snapshot`; `d` is `min(depth, TOP_LEVELS)`. -/
def snapshotLoop (exchange : Exchange) (pair : String) (d : ℕ) :
    Call TopOfBook SnapshotLocals OrderBookSnapshot where
  init := { bids := List.replicate d {}, asks := List.replicate d {} }
  body l := .read (·.lastSequenceId) fun sequenceId =>
    .read (·.lastUpdateTime) fun localTimestamp =>
      .read (·.numTopBids) fun n =>
        let nb := min d n
        copyLevels (fun i m => m.topBids i) ((List.finRange 20).take nb) l.bids fun bids =>
          .read (·.numTopAsks) fun n =>
            let na := min d n
            copyLevels (fun i m => m.topAsks i) ((List.finRange 20).take na) l.asks fun asks =>
              .done { bids := resize bids nb, asks := resize asks na, sequenceId, localTimestamp }
  finish l :=
    { exchange, pair, bids := l.bids, asks := l.asks, sequenceId := l.sequenceId,
      localTimestamp := l.localTimestamp }

/-- `is_stale`; the threshold is in milliseconds and `now` is the clock after
the loop. -/
def isStale (threshold : ℤ) (now : TimePoint) : Call TopOfBook TimePoint Bool where
  init := 0
  body _ := .read (·.lastUpdateTime) fun lu => .done lu
  finish lu := decide (now - lu > threshold * 10 ^ 6)

/-- `snapshot(depth)` between two writer calls. A negative depth makes the first
`resize` throw. -/
def OrderBook.snapshot (b : OrderBook) (depth : ℤ) : Option OrderBookSnapshot :=
  let d := min depth 20
  if d < 0 then none else (snapshotLoop b.exchange b.pair d.toNat).alone b.top

end CryptoArbBot
