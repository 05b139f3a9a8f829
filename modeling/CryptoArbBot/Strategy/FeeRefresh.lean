import CryptoArbBot.Strategy.FeeManager
import Mathlib.Logic.Function.Basic
import Mathlib.Tactic.NormNum

/-!
# Refreshing the fee cache (strategy/fee_manager.cpp)

A refresh asks every exchange for its top pairs and then for the fee of each of
them. A call that throws is logged and skipped. The new cache starts empty and
replaces the old one.
-/

namespace CryptoArbBot

namespace FeeManager

/-- An entry of `top_pairs` with the outcome of `fetch_fees` for it. -/
structure TopPair where
  pairName : String
  volume : ℚ
  fees : Except String FeeInfo

structure ExchangeAnswers where
  exchangeId : Exchange
  topPairs : Except String (List TopPair)

abbrev Cache := String → Exchange → Option FeeInfo

def cacheFee (exch : Exchange) (newCache : Cache) (top : TopPair) : Cache :=
  match top.fees with
  | .ok info =>
    Function.update newCache top.pairName
      (Function.update (newCache top.pairName) exch (some info))
  | .error _ => newCache

def cacheExchange (newCache : Cache) (answers : ExchangeAnswers) : Cache :=
  match answers.topPairs with
  | .ok topPairs => topPairs.foldl (cacheFee answers.exchangeId) newCache
  | .error _ => newCache

def refreshAllFees (fees : FeeManager) (exchanges : List ExchangeAnswers) : FeeManager :=
  { fees with feeCache := exchanges.foldl cacheExchange fun _ _ => none }

def afterRefreshes (refreshes : List (List ExchangeAnswers)) : FeeManager :=
  refreshes.foldl refreshAllFees {}

/-! ### The fees fetched in a refresh -/

structure Fetch where
  exch : Exchange
  pair : String
  info : FeeInfo

def TopPair.fetched (exch : Exchange) (top : TopPair) : Option Fetch :=
  match top.fees with
  | .ok info => some ⟨exch, top.pairName, info⟩
  | .error _ => none

/-- The calls of `fetch_fees` that returned, in their order. -/
def ExchangeAnswers.fetched (answers : ExchangeAnswers) : List Fetch :=
  match answers.topPairs with
  | .ok topPairs => topPairs.filterMap (TopPair.fetched answers.exchangeId)
  | .error _ => []

def latestFetch (exch : Exchange) (pair : String) (fetches : List Fetch) : Option FeeInfo :=
  ((fetches.filter fun f => f.exch = exch ∧ f.pair = pair).getLast?).map Fetch.info

def fetchedIn (refresh : List ExchangeAnswers) : List Fetch :=
  refresh.flatMap ExchangeAnswers.fetched

variable {exch : Exchange} {pair : String}

theorem latestFetch_append (xs ys : List Fetch) :
    latestFetch exch pair (xs ++ ys) = (latestFetch exch pair ys).or (latestFetch exch pair xs) := by
  unfold latestFetch
  rw [List.filter_append, List.getLast?_append]
  cases (ys.filter fun f => f.exch = exch ∧ f.pair = pair).getLast? <;> rfl

theorem cacheFee_apply (newCache : Cache) (e : Exchange) (top : TopPair) :
    cacheFee e newCache top pair exch =
      (latestFetch exch pair (top.fetched e).toList).or (newCache pair exch) := by
  unfold cacheFee TopPair.fetched latestFetch
  cases top.fees with
  | error message => rfl
  | ok info =>
    by_cases hp : top.pairName = pair
    · by_cases he : e = exch
      · subst hp he
        simp
      · subst hp
        simp [he, Function.update_of_ne (Ne.symm he)]
    · simp [hp, Function.update_of_ne (Ne.symm hp)]

theorem cacheExchange_apply (newCache : Cache) (answers : ExchangeAnswers) :
    cacheExchange newCache answers pair exch =
      (latestFetch exch pair answers.fetched).or (newCache pair exch) := by
  unfold cacheExchange ExchangeAnswers.fetched
  cases answers.topPairs with
  | error message => rfl
  | ok topPairs =>
    dsimp only
    induction topPairs generalizing newCache with
    | nil => rfl
    | cons top topPairs ih =>
      have hsplit : (top :: topPairs).filterMap (TopPair.fetched answers.exchangeId) =
          (top.fetched answers.exchangeId).toList ++
            topPairs.filterMap (TopPair.fetched answers.exchangeId) := by
        rw [List.filterMap_cons]
        cases top.fetched answers.exchangeId <;> rfl
      rw [List.foldl_cons, ih, cacheFee_apply, hsplit, latestFetch_append, Option.or_assoc]

theorem refreshAllFees_cache (fees : FeeManager) (refresh : List ExchangeAnswers) :
    (fees.refreshAllFees refresh).feeCache pair exch = latestFetch exch pair (fetchedIn refresh) := by
  have hfold : ∀ newCache : Cache, refresh.foldl cacheExchange newCache pair exch =
      (latestFetch exch pair (fetchedIn refresh)).or (newCache pair exch) := by
    unfold fetchedIn
    induction refresh with
    | nil => exact fun _ => rfl
    | cons answers refresh ih =>
      intro newCache
      rw [List.foldl_cons, ih, cacheExchange_apply, List.flatMap_cons, latestFetch_append,
        Option.or_assoc]
  exact (hfold fun _ _ => none).trans Option.or_none

/-! ### What a history leaves -/

/-- The fee of the last `fetch_fees` call for the exchange and the pair that
returned, over all refreshes. -/
def lastFetched (refreshes : List (List ExchangeAnswers)) (exch : Exchange) (pair : String) :
    Option FeeInfo :=
  latestFetch exch pair (refreshes.flatMap fetchedIn)

/-- The fee that is expected, by `get_fee` and in both places of `total_fee_rate`. -/
def Remembers (fees : FeeManager) (exch : Exchange) (pair : String) (info : FeeInfo) : Prop :=
  fees.getFee exch pair = info ∧
    (∀ sellExch, fees.totalFeeRate exch sellExch pair =
      info.takerFee + (fees.getFee sellExch pair).takerFee) ∧
    ∀ buyExch, fees.totalFeeRate buyExch exch pair =
      (fees.getFee buyExch pair).takerFee + info.takerFee

theorem remembers_iff {fees : FeeManager} {info : FeeInfo} :
    Remembers fees exch pair info ↔ fees.getFee exch pair = info := by
  constructor
  · exact fun h => h.1
  · intro h
    refine ⟨h, fun sellExch => ?_, fun buyExch => ?_⟩
    · rw [totalFeeRate_eq, h]
    · rw [totalFeeRate_eq, h]

theorem afterRefreshes_concat (earlier : List (List ExchangeAnswers))
    (last : List ExchangeAnswers) :
    afterRefreshes (earlier ++ [last]) = (afterRefreshes earlier).refreshAllFees last := by
  unfold afterRefreshes
  rw [List.foldl_append]
  rfl

/-- The last refresh fetched the fee, or no earlier one did, or what they fetched
is the default anyway. -/
def Refetched (refreshes : List (List ExchangeAnswers)) (exch : Exchange) (pair : String) : Prop :=
  (∃ last ∈ refreshes.getLast?, latestFetch exch pair (fetchedIn last) ≠ none) ∨
    lastFetched refreshes exch pair = none ∨
    lastFetched refreshes exch pair = some (defaultFeeForExchange exch pair)

theorem remembers_iff_refetched (refreshes : List (List ExchangeAnswers)) (exch : Exchange)
    (pair : String) :
    Remembers (afterRefreshes refreshes) exch pair
        ((lastFetched refreshes exch pair).getD (defaultFeeForExchange exch pair)) ↔
      Refetched refreshes exch pair := by
  rw [remembers_iff]
  rcases List.eq_nil_or_concat' refreshes with rfl | ⟨earlier, last, rfl⟩
  · exact ⟨fun _ => .inr (.inl rfl), fun _ => rfl⟩
  · have hsplit : lastFetched (earlier ++ [last]) exch pair =
        (latestFetch exch pair (fetchedIn last)).or (lastFetched earlier exch pair) := by
      unfold lastFetched
      rw [List.flatMap_append, latestFetch_append, List.flatMap_singleton]
    unfold getFee Refetched
    rw [afterRefreshes_concat, refreshAllFees_cache, List.getLast?_concat, hsplit]
    cases hlast : latestFetch exch pair (fetchedIn last) with
    | some info =>
      refine ⟨fun _ => .inl ⟨last, rfl, ?_⟩, fun _ => rfl⟩
      rw [hlast]
      exact Option.some_ne_none info
    | none =>
      have hgone : ¬ ∃ refresh ∈ some last, latestFetch exch pair (fetchedIn refresh) ≠ none := by
        rintro ⟨refresh, hmem, hne⟩
        cases hmem
        exact hne hlast
      rw [Option.none_or, or_iff_right hgone]
      dsimp only
      cases lastFetched earlier exch pair with
      | none => exact ⟨fun _ => .inl rfl, fun _ => rfl⟩
      | some info =>
        constructor
        · intro heq
          exact .inr (congrArg some heq.symm)
        · rintro (hnone | hdefault)
          · cases hnone
          · exact (Option.some.inj hdefault).symm

/-- The fee is fetched once; the next refresh cannot list the pairs. -/
def outage : List (List ExchangeAnswers) :=
  [[⟨.binance, .ok [⟨"BTC-USD", 1000,
      .ok { exchange := .binance, pair := "BTC-USD", makerFee := 6 / 10000, takerFee := 6 / 10000 }⟩]⟩],
    [⟨.binance, .error "timeout"⟩]]

theorem outage_forgets_fee : ¬ ∀ refreshes exch pair,
    Remembers (afterRefreshes refreshes) exch pair
      ((lastFetched refreshes exch pair).getD (defaultFeeForExchange exch pair)) := by
  intro h
  have hfee : (1 : ℚ) / 1000 = 6 / 10000 :=
    congrArg FeeInfo.takerFee (h outage .binance "BTC-USD").1
  norm_num at hfee

end FeeManager

end CryptoArbBot
