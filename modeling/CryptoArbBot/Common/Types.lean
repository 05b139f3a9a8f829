import Mathlib.Algebra.Order.Ring.Rat
import Mathlib.Data.Fintype.Basic

/-!
# Shared data types (common/types.h)

Prices, quantities, fees and balances are C++ doubles; they are modelled by
exact rationals, which hold every finite double. Clock readings of
`steady_clock` are integers of nanoseconds. Fields that no modelled function
reads are left out.
-/

namespace CryptoArbBot

/-- `enum class Exchange`; `count` is the `COUNT` sentinel. -/
inductive Exchange where
  | binance | okx | bybit | mexc | gateio | count
  deriving DecidableEq, Repr

def Exchange.toString : Exchange → String
  | .binance => "BINANCE"
  | .okx => "OKX"
  | .bybit => "BYBIT"
  | .mexc => "MEXC"
  | .gateio => "GATEIO"
  | .count => "COUNT"

/-- `exchange_from_string`, which throws on any other text. -/
def exchangeFromString (s : String) : Except String Exchange :=
  if s = "BINANCE" then .ok .binance
  else if s = "OKX" then .ok .okx
  else if s = "BYBIT" then .ok .bybit
  else if s = "MEXC" then .ok .mexc
  else if s = "GATEIO" then .ok .gateio
  else .error ("Unknown exchange: " ++ s)

theorem exchangeFromString_toString {exch : Exchange} (h : exch ≠ .count) :
    exchangeFromString exch.toString = .ok exch := by
  cases exch with
  | count => exact absurd rfl h
  | _ => decide

instance : Fintype Exchange :=
  Fintype.ofList [.binance, .okx, .bybit, .mexc, .gateio, .count] (by intro e; cases e <;> simp)

inductive Side where
  | buy | sell
  deriving DecidableEq, Repr

/-- `enum class OrderStatus`; `opened` is the source's `OPEN`. -/
inductive OrderStatus where
  | pending | opened | partiallyFilled | filled | cancelled | rejected
  deriving DecidableEq, Repr

inductive TradingMode where
  | live | paper | backtest
  deriving DecidableEq, Repr

def OrderStatus.toString : OrderStatus → String
  | .pending => "PENDING"
  | .opened => "OPEN"
  | .partiallyFilled => "PARTIALLY_FILLED"
  | .filled => "FILLED"
  | .cancelled => "CANCELLED"
  | .rejected => "REJECTED"

def TradingMode.toString : TradingMode → String
  | .live => "LIVE"
  | .paper => "PAPER"
  | .backtest => "BACKTEST"

/-- `std::chrono::steady_clock::time_point`, in nanoseconds. -/
abbrev TimePoint := ℤ

structure PriceLevel where
  price : ℚ := 0
  quantity : ℚ := 0
  deriving DecidableEq, Repr

structure OrderBookSnapshot where
  exchange : Exchange
  pair : String
  bids : List PriceLevel
  asks : List PriceLevel
  sequenceId : UInt64 := 0
  localTimestamp : TimePoint := 0
  deriving DecidableEq

structure FeeInfo where
  makerFee : ℚ := 0
  takerFee : ℚ := 0
  exchange : Exchange
  pair : String
  deriving DecidableEq, Repr

structure OrderRequest where
  exchange : Exchange
  pair : String
  side : Side
  price : ℚ
  quantity : ℚ
  clientOrderId : String
  deriving DecidableEq, Repr

structure OrderResult where
  exchangeOrderId : String := ""
  status : OrderStatus := .pending
  filledQuantity : ℚ := 0
  avgFillPrice : ℚ := 0
  feePaid : ℚ := 0
  errorMessage : String := ""
  deriving DecidableEq, Repr

structure ArbitrageOpportunity where
  pair : String
  buyExchange : Exchange
  sellExchange : Exchange
  buyPrice : ℚ
  sellPrice : ℚ
  quantity : ℚ
  grossSpreadBps : ℚ
  netSpreadBps : ℚ
  deriving DecidableEq, Repr

structure TradeRecord where
  id : String
  pair : String
  buyExchange : Exchange
  sellExchange : Exchange
  buyPrice : ℚ
  sellPrice : ℚ
  quantity : ℚ
  grossSpreadBps : ℚ
  netSpreadBps : ℚ
  buyResult : OrderResult := {}
  sellResult : OrderResult := {}
  realizedPnl : ℚ := 0
  timestampIso : String
  mode : TradingMode
  deriving DecidableEq, Repr

structure BalanceInfo where
  exchange : Exchange
  asset : String
  free : ℚ := 0
  locked : ℚ := 0
  deriving DecidableEq, Repr

/-- `std::map<std::string, double>`: its entries, each key once. -/
structure AssetMap where
  entries : List (String × ℚ)
  nodup : (entries.map Prod.fst).Nodup

def AssetMap.amount (m : AssetMap) (asset : String) : ℚ := (m.entries.lookup asset).getD 0

theorem AssetMap.amount_nonneg {m : AssetMap} (h : ∀ entry ∈ m.entries, 0 ≤ entry.2)
    (asset : String) : 0 ≤ m.amount asset := by
  unfold AssetMap.amount
  cases hlookup : m.entries.lookup asset with
  | none => exact le_rfl
  | some amount =>
    obtain ⟨before, after, hentries, _⟩ := List.lookup_eq_some_iff.mp hlookup
    exact h (asset, amount) (by rw [hentries]; simp)

structure HistoricalSnapshot where
  timestampMs : UInt64 := 0
  exchange : Exchange
  pair : String
  bids : List PriceLevel := []
  asks : List PriceLevel := []
  deriving DecidableEq

structure BacktestConfig where
  pairs : List String := []
  minNetSpreadBps : ℚ := 3
  minTradeSizeUsd : ℚ := 50
  initialBalances : AssetMap

/-- `find('-')` followed by the two `substr` calls: the text before and after
the first hyphen, or nothing when `find` returns `npos`. -/
def splitPair (pair : String) : Option (String × String) :=
  let cs := pair.toList
  if '-' ∈ cs then
    some (String.ofList (cs.takeWhile (· ≠ '-')),
      String.ofList ((cs.dropWhile (· ≠ '-')).drop 1))
  else none

def OrderStatus.live : OrderStatus → Bool
  | .pending | .opened | .partiallyFilled => true
  | .filled | .cancelled | .rejected => false

end CryptoArbBot
