import CryptoArbBot.Common.Types

/-!
# The fee cache (strategy/fee_manager.cpp)

The cache is an array of exchanges for each pair. Where it has no entry the
exchange's default is charged.
-/

namespace CryptoArbBot

structure FeeManager where
  feeCache : String → Exchange → Option FeeInfo := fun _ _ => none

namespace FeeManager

def defaultFeeForExchange (exch : Exchange) (pair : String) : FeeInfo :=
  match exch with
  | .binance => { exchange := exch, pair, makerFee := 1 / 1000, takerFee := 1 / 1000 }
  | .okx => { exchange := exch, pair, makerFee := 8 / 10000, takerFee := 1 / 1000 }
  | .bybit => { exchange := exch, pair, makerFee := 1 / 1000, takerFee := 1 / 1000 }
  | .mexc => { exchange := exch, pair, makerFee := 0, takerFee := 5 / 10000 }
  | .gateio => { exchange := exch, pair, makerFee := 2 / 10000, takerFee := 75 / 100000 }
  | .count => { exchange := exch, pair, makerFee := 1 / 1000, takerFee := 1 / 1000 }

def getFee (fees : FeeManager) (exch : Exchange) (pair : String) : FeeInfo :=
  match fees.feeCache pair exch with
  | some info => info
  | none => defaultFeeForExchange exch pair

/-- The source looks each fee up in place instead of calling `get_fee`. -/
def totalFeeRate (fees : FeeManager) (buyExch sellExch : Exchange) (pair : String) : ℚ :=
  let buyFee :=
    match fees.feeCache pair buyExch with
    | some info => info.takerFee
    | none => (defaultFeeForExchange buyExch pair).takerFee
  let sellFee :=
    match fees.feeCache pair sellExch with
    | some info => info.takerFee
    | none => (defaultFeeForExchange sellExch pair).takerFee
  buyFee + sellFee

theorem totalFeeRate_eq (fees : FeeManager) (buyExch sellExch : Exchange) (pair : String) :
    fees.totalFeeRate buyExch sellExch pair =
      (fees.getFee buyExch pair).takerFee + (fees.getFee sellExch pair).takerFee := by
  unfold totalFeeRate getFee
  cases fees.feeCache pair buyExch with
  | none => cases fees.feeCache pair sellExch <;> rfl
  | some info => cases fees.feeCache pair sellExch <;> rfl

end FeeManager

end CryptoArbBot
