import CryptoArbBot.Exchange.QueryOrder
import CryptoArbBot.Exchange.SignedGets

/-!
# Reading the answers about the account (exchange/*/*_rest.cpp)

The decoders of balances and trade fees. Four clients catch what goes wrong and
keep what they have read before it; Binance lets the exception through.
-/

namespace CryptoArbBot

/-- `operator[]` with a key on a value that may change: a missing member is null, and so is
every member of null. -/
def Json.index (j : Json) (key : String) : Except String Json :=
  match j with
  | .object _ | .null => .ok ((j.member? key).getD .null)
  | _ => .error (Json.typeError "305"
      ("cannot use operator[] with a string argument with " ++ j.typeName))

/-! ### Balances -/

/-- The body of the loop over the entries; an empty balance is not pushed. -/
def balanceEntry (exchange : Exchange) (assetKey freeKey lockedKey : String) (d : Json) :
    Except String (Option BalanceInfo) := do
  let asset ← d.valueString assetKey ""
  let free ← stod (← d.valueString freeKey "0")
  let locked ← stod (← d.valueString lockedKey "0")
  return if free > 0 ∨ locked > 0 then some { exchange, asset, free, locked } else none

/-- The loop: an exception ends it with what was pushed before. -/
def pushEntries (entry : Json → Except String (Option BalanceInfo)) :
    List Json → List BalanceInfo × Option String
  | [] => ([], none)
  | d :: rest =>
    match entry d with
    | .error e => ([], some e)
    | .ok pushed =>
      let (balances, e) := pushEntries entry rest
      (pushed.toList ++ balances, e)

/-- The `catch` behind the loop returns the balances all the same. -/
def tryEntries (entry : Json → Except String (Option BalanceInfo)) (entries : Except String (List Json)) :
    List BalanceInfo :=
  match entries with
  | .error _ => []
  | .ok entries => (pushEntries entry entries).1

namespace Okx

def balanceEntries (parsed : Except String Json) : Except String (List Json) := do
  match ← queriedEntry parsed with
  | none => return []
  | some d => return (← d.index "details").elements

def readBalances (parsed : Except String Json) : List BalanceInfo :=
  tryEntries (balanceEntry .okx "ccy" "availBal" "frozenBal") (balanceEntries parsed)

end Okx

namespace Bybit

def balanceEntries (parsed : Except String Json) : Except String (List Json) := do
  match ← queriedEntry parsed with
  | none => return []
  | some d => return (← d.index "coin").elements

def readBalances (parsed : Except String Json) : List BalanceInfo :=
  tryEntries (balanceEntry .bybit "coin" "availableToWithdraw" "locked") (balanceEntries parsed)

end Bybit

namespace Mexc

def balanceEntries (parsed : Except String Json) : Except String (List Json) := do
  let j ← parsed
  match j.member? "balances" with
  | none => return []
  | some balances => return balances.elements

def readBalances (parsed : Except String Json) : List BalanceInfo :=
  tryEntries (balanceEntry .mexc "asset" "free" "locked") (balanceEntries parsed)

end Mexc

namespace Gateio

def balanceEntries (parsed : Except String Json) : Except String (List Json) := do
  match ← parsed with
  | .array items => return items
  | _ => return []

def readBalances (parsed : Except String Json) : List BalanceInfo :=
  tryEntries (balanceEntry .gateio "currency" "available" "locked") (balanceEntries parsed)

end Gateio

namespace Binance

/-- The name of the asset is read only for a balance that is kept. -/
def accountEntry (bal : Json) : Except String (Option BalanceInfo) := do
  let freeAmt ← stod (← bal.valueString "free" "0")
  let lockedAmt ← stod (← bal.valueString "locked" "0")
  if freeAmt > 0 ∨ lockedAmt > 0 then
    return some
      { exchange := .binance, asset := ← bal.valueString "asset" "", free := freeAmt, locked := lockedAmt }
  else return none

def accountEntries (P : Platform) (resp : HttpResponse) : Except String (List Json) :=
  if resp.statusCode ≠ 200 then .error ("Binance fetch_account HTTP " ++ Int.repr resp.statusCode)
  else do return (← (← P.parseJson resp.body).index "balances").elements

def readAccount (P : Platform) (resp : HttpResponse) : Except String (List BalanceInfo) := do
  match pushEntries accountEntry (← accountEntries P resp) with
  | (balances, none) => return balances
  | (_, some e) => .error e

end Binance

/-- `fetch_balances` of the adapter, on the response that the client returned. -/
def Venue.readBalances (P : Platform) (resp : HttpResponse) : Venue → Except String (List BalanceInfo)
  | .binance => Binance.readAccount P resp
  | .okx => .ok (Okx.readBalances (P.parseJson resp.body))
  | .bybit => .ok (Bybit.readBalances (P.parseJson resp.body))
  | .mexc => .ok (Mexc.readBalances (P.parseJson resp.body))
  | .gateio => .ok (Gateio.readBalances (P.parseJson resp.body))

/-- The entries that the loop goes through. -/
def Venue.balanceEntries (P : Platform) (resp : HttpResponse) : Venue → Except String (List Json)
  | .binance => Binance.accountEntries P resp
  | .okx => Okx.balanceEntries (P.parseJson resp.body)
  | .bybit => Bybit.balanceEntries (P.parseJson resp.body)
  | .mexc => Mexc.balanceEntries (P.parseJson resp.body)
  | .gateio => Gateio.balanceEntries (P.parseJson resp.body)

def Venue.balanceEntry : Venue → Json → Except String (Option BalanceInfo)
  | .binance => Binance.accountEntry
  | .okx => CryptoArbBot.balanceEntry .okx "ccy" "availBal" "frozenBal"
  | .bybit => CryptoArbBot.balanceEntry .bybit "coin" "availableToWithdraw" "locked"
  | .mexc => CryptoArbBot.balanceEntry .mexc "asset" "free" "locked"
  | .gateio => CryptoArbBot.balanceEntry .gateio "currency" "available" "locked"

/-- The balances of the entries before the first one that cannot be read. -/
def readableBalances (entry : Json → Except String (Option BalanceInfo)) (entries : List Json) :
    List BalanceInfo :=
  (entries.takeWhile fun d => (entry d).isOk).filterMap fun d => (entry d).toOption.join

theorem pushEntries_fst (entry : Json → Except String (Option BalanceInfo)) (entries : List Json) :
    (pushEntries entry entries).1 = readableBalances entry entries := by
  unfold readableBalances
  induction entries with
  | nil => rfl
  | cons d rest ih =>
    rw [pushEntries]
    cases hentry : entry d with
    | error e =>
      have hstop : ¬ (entry d).isOk = true := by
        rw [hentry]
        exact Bool.false_ne_true
      rw [List.takeWhile_cons_of_neg (p := fun d => (entry d).isOk) hstop]
      rfl
    | ok pushed =>
      have hread : (entry d).isOk = true := by
        rw [hentry]
        rfl
      have hpushed : (entry d).toOption.join = pushed := by
        rw [hentry]
        rfl
      rw [List.takeWhile_cons_of_pos (p := fun d => (entry d).isOk) hread, List.filterMap_cons, hpushed, ← ih]
      cases pushed <;> rfl

/-- Only Binance can fail, and what was read is what the readable entries say. -/
theorem Venue.readBalances_ok {P : Platform} {resp : HttpResponse} {venue : Venue} {entries : List Json}
    {balances : List BalanceInfo} (hentries : venue.balanceEntries P resp = .ok entries)
    (h : venue.readBalances P resp = .ok balances) :
    balances = readableBalances venue.balanceEntry entries := by
  have htry : ∀ {entry : Json → Except String (Option BalanceInfo)} {found : Except String (List Json)},
      found = .ok entries → tryEntries entry found = readableBalances entry entries := by
    rintro entry found rfl
    exact pushEntries_fst entry entries
  cases venue with
  | binance =>
    have hfound : Binance.accountEntries P resp = .ok entries := hentries
    have hread : Binance.readAccount P resp = .ok balances := h
    rw [Binance.readAccount, hfound] at hread
    change (match pushEntries Binance.accountEntry entries with
      | (balances, none) => Except.ok balances
      | (_, some e) => .error e) = .ok balances at hread
    have hpushed := pushEntries_fst Binance.accountEntry entries
    split at hread
    next pushed heq =>
      cases hread
      rw [heq] at hpushed
      exact hpushed
    next => cases hread
  | okx => exact (Except.ok.inj h).symm.trans (htry hentries)
  | bybit => exact (Except.ok.inj h).symm.trans (htry hentries)
  | mexc => exact (Except.ok.inj h).symm.trans (htry hentries)
  | gateio => exact (Except.ok.inj h).symm.trans (htry hentries)

theorem Venue.readBalances_error {P : Platform} {resp : HttpResponse} {venue : Venue} {e : String}
    (h : venue.readBalances P resp = .error e) : venue = .binance := by
  cases venue with
  | binance => rfl
  | okx | bybit | mexc | gateio => cases h

/-- An unreadable answer leaves the four other clients with no balance at all. -/
theorem Venue.readBalances_unreadable {P : Platform} {resp : HttpResponse} {venue : Venue} {e : String}
    (hvenue : venue ≠ .binance) (h : P.parseJson resp.body = .error e) :
    venue.readBalances P resp = .ok [] := by
  cases venue with
  | binance => exact absurd rfl hvenue
  | okx => simp only [readBalances, h]; rfl
  | bybit => simp only [readBalances, h]; rfl
  | mexc => simp only [readBalances, h]; rfl
  | gateio => simp only [readBalances, h]; rfl

/-! ### Trade fees -/

/-- `get<double>()` of a member, when there is one. -/
def Json.double? (j : Json) (key : String) : Except String (Option ℚ) :=
  match j.member? key with
  | none => .ok none
  | some v => v.getDouble.map some

/-- The two assignments of the `try` block. -/
def FeeInfo.tryFees (info : FeeInfo) (maker taker : Except String (Option ℚ)) : FeeInfo :=
  match maker with
  | .error _ => info
  | .ok maker =>
    let info := { info with makerFee := maker.getD info.makerFee }
    match taker with
    | .error _ => info
    | .ok taker => { info with takerFee := taker.getD info.takerFee }

namespace Okx

def readTradeFee (instId : String) (parsed : Except String Json) : FeeInfo :=
  let info : FeeInfo := { exchange := .okx, pair := instId, makerFee := 8 / 10000, takerFee := 1 / 1000 }
  match queriedEntry parsed with
  | .error _ | .ok none => info
  | .ok (some d) =>
    info.tryFees ((d.number? "maker").map (·.map abs)) ((d.number? "taker").map (·.map abs))

end Okx

namespace Bybit

def readTradeFee (symbol : String) (parsed : Except String Json) : FeeInfo :=
  let info : FeeInfo := { exchange := .bybit, pair := symbol, makerFee := 1 / 1000, takerFee := 1 / 1000 }
  match queriedEntry parsed with
  | .error _ | .ok none => info
  | .ok (some d) =>
    info.tryFees ((d.number? "makerFeeRate").map (·.map abs)) ((d.number? "takerFeeRate").map (·.map abs))

end Bybit

namespace Mexc

/-- Rates in basis points; without a key nothing is asked. -/
def readTradeFee (apiKey symbol : String) (parsed : Except String Json) : FeeInfo :=
  let info : FeeInfo := { exchange := .mexc, pair := symbol, makerFee := 0, takerFee := 5 / 10000 }
  if apiKey = "" then info
  else match parsed with
    | .error _ => info
    | .ok j =>
      info.tryFees ((j.double? "makerCommission").map (·.map (· / 10000)))
        ((j.double? "takerCommission").map (·.map (· / 10000)))

end Mexc

namespace Gateio

def readTradeFee (apiKey currencyPair : String) (parsed : Except String Json) : FeeInfo :=
  let info : FeeInfo :=
    { exchange := .gateio, pair := currencyPair, makerFee := 2 / 10000, takerFee := 75 / 100000 }
  if apiKey = "" then info
  else match parsed with
    | .error _ => info
    | .ok j => info.tryFees (j.number? "maker_fee") (j.number? "taker_fee")

end Gateio

namespace Binance

def readTradeFee (P : Platform) (symbol : String) (resp : HttpResponse) : Except String FeeInfo :=
  if resp.statusCode ≠ 200 then .error ("Binance fetch_trade_fee HTTP " ++ Int.repr resp.statusCode)
  else do
    let arr ← P.parseJson resp.body
    if arr.empty then
      return { exchange := .binance, pair := symbol, makerFee := 1 / 1000, takerFee := 1 / 1000 }
    else
      let item ← arr.first
      let makerFee ← stod (← item.valueString "makerCommission" "0.001")
      let takerFee ← stod (← item.valueString "takerCommission" "0.001")
      return { exchange := .binance, pair := symbol, makerFee, takerFee }

end Binance

def Venue.readTradeFee (P : Platform) (apiKey symbol : String) (resp : HttpResponse) :
    Venue → Except String FeeInfo
  | .binance => Binance.readTradeFee P symbol resp
  | .okx => .ok (Okx.readTradeFee symbol (P.parseJson resp.body))
  | .bybit => .ok (Bybit.readTradeFee symbol (P.parseJson resp.body))
  | .mexc => .ok (Mexc.readTradeFee apiKey symbol (P.parseJson resp.body))
  | .gateio => .ok (Gateio.readTradeFee apiKey symbol (P.parseJson resp.body))

/-! ### The answer a reader is given -/

/-- What one call meets: the adapter, its clock, and the server after earlier sends. -/
structure Connection where
  adapter : Adapter
  clock : Clock
  server : Server
  log : List Delivery

def Venue.answer (P : Platform) (escape : String → String) (call : GetCall) (c : Connection)
    (venue : Venue) : HttpResponse :=
  ((venue.signedGet P c.adapter c.clock call).send escape c.adapter.client c.server c.log).1

end CryptoArbBot
