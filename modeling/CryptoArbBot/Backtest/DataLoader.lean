import CryptoArbBot.Common.Text
import CryptoArbBot.Common.Types
import CryptoArbBot.Library.TextStream

/-!
# Recording and loading data (backtest/data_loader.cpp)

A directory is a map from paths to the texts of its files. A file that exists can be
read, and a write to an opened file is complete.
-/

namespace CryptoArbBot.DataLoader

/-! ### Writing -/

def columnNames (side : String) : String :=
  String.join ((List.range 20).map fun i =>
    "," ++ side ++ toString i ++ "_price," ++ side ++ toString i ++ "_qty")

def csvHeader : String := "timestamp_ms,exchange,pair" ++ columnNames "bid" ++ columnNames "ask"

/-- Both columns of a level; a missing level leaves them empty. -/
def columns : Option PriceLevel → String
  | some level => "," ++ ostreamDouble level.price ++ "," ++ ostreamDouble level.quantity
  | none => ",,"

def levelColumns (levels : List PriceLevel) : String :=
  String.join ((List.range 20).map fun i => columns levels[i]?)

def csvRow (snapshot : OrderBookSnapshot) (timestampMs : UInt64) : String :=
  Nat.repr timestampMs.toNat ++ "," ++ snapshot.exchange.toString ++ "," ++ snapshot.pair ++
    levelColumns snapshot.bids ++ levelColumns snapshot.asks

def csvFilename (directory : String) (snapshot : OrderBookSnapshot) : String :=
  directory ++ "/" ++ snapshot.exchange.toString ++ "_" ++ snapshot.pair ++ ".csv"

abbrev Files := String → Option String

/-- Whether the system opens the file for appending. -/
inductive Opening where
  | unopened
  | opened
  deriving DecidableEq, Repr

def appendRow (directory : String) (files : Files) (snapshot : OrderBookSnapshot)
    (timestampMs : UInt64) : Files :=
  let filename := csvFilename directory snapshot
  let content := (files filename).getD (csvHeader ++ "\n")
  Function.update files filename (some (content ++ (csvRow snapshot timestampMs ++ "\n")))

def saveSnapshotCsv (directory : String) (call : Opening) (files : Files)
    (snapshot : OrderBookSnapshot) (timestampMs : UInt64) : Files :=
  match call with
  | .unopened => files
  | .opened => appendRow directory files snapshot timestampMs

/-! ### Reading -/

/-- The loop over the levels of a side; it stops where the stream ends and at the
first empty price, which it has taken with the quantity. -/
def readLevels : ℕ → TextStream → Except String (List PriceLevel × TextStream)
  | 0, ss => .ok ([], ss)
  | n + 1, ss =>
    match ss.getline ',' "" with
    | (false, _, ss) => .ok ([], ss)
    | (true, priceStr, ss) =>
      match ss.getline ',' "" with
      | (false, _, ss) => .ok ([], ss)
      | (true, qtyStr, ss) =>
        if priceStr.isEmpty then .ok ([], ss)
        else do
          let price ← stod priceStr
          let qty ← stod qtyStr
          let (levels, ss) ← readLevels n ss
          .ok (if price > 0 then ⟨price, qty⟩ :: levels else levels, ss)

/-- The body of the loop over the lines. -/
def parseRow (line : String) : Except String HistoricalSnapshot := do
  let (_, token, ss) := (TextStream.ofString line).getline ',' ""
  let timestampMs ← stoull token
  let (_, token, ss) := ss.getline ',' token
  let exchange ← exchangeFromString token
  let (_, pair, ss) := ss.getline ',' token
  let (bids, ss) ← readLevels 20 ss
  let (asks, _) ← readLevels 20 ss
  .ok { timestampMs, exchange, pair, bids, asks }

def loadCsv (file : Option String) : Except String (List HistoricalSnapshot) :=
  match file with
  | none => .ok []
  | some content =>
    let (_, _, stream) := (TextStream.ofString content).getline '\n' ""
    ((stream.lines '\n').filter fun line => !line.isEmpty).mapM parseRow

/-! ### Filtering -/

/-- An empty list of pairs keeps every pair. -/
def filter (data : List HistoricalSnapshot) (fromMs toMs : UInt64) (pairs : List String) :
    List HistoricalSnapshot :=
  data.filter fun snap =>
    if snap.timestampMs < fromMs ∨ snap.timestampMs > toMs then false
    else pairs.isEmpty || pairs.any fun p => snap.pair == p

theorem filter_pairs (data : List HistoricalSnapshot) {pairs : List String} (hpairs : pairs ≠ []) :
    filter data 0 (.ofNat (2 ^ 64 - 1)) pairs = data.filter fun snap => snap.pair ∈ pairs := by
  refine List.filter_congr ?_
  intro snap _
  have htime : ¬ (snap.timestampMs < 0 ∨ snap.timestampMs > .ofNat (2 ^ 64 - 1)) := by
    have hbound := snap.timestampMs.toNat_lt
    have hmax : (UInt64.ofNat (2 ^ 64 - 1)).toNat = 2 ^ 64 - 1 := rfl
    have hzero : (0 : UInt64).toNat = 0 := rfl
    rw [UInt64.lt_iff_toNat_lt, gt_iff_lt, UInt64.lt_iff_toNat_lt, hmax, hzero]
    omega
  rw [if_neg htime, List.isEmpty_eq_false_iff.mpr hpairs, Bool.false_or, Bool.eq_iff_iff]
  simp

end CryptoArbBot.DataLoader
