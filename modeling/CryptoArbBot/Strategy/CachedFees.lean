import CryptoArbBot.Exchange.Submission
import CryptoArbBot.Exchange.SymbolMapping
import CryptoArbBot.Library.StdAlgorithms
import CryptoArbBot.Strategy.FeeRefresh

/-!
# Whose fees are cached (strategy/fee_manager.cpp, exchange/*/*_adapter.cpp)

A refresh names its pairs by reading symbols back and asks for the fee of the symbol
that a name stands for. No two pairs stand for one symbol, so a cached fee is the
pair's own, also where the name was read back wrongly.
-/

namespace CryptoArbBot
open Substrings FeeManager

/-! ### What an adapter answers -/

def Venue.exchange : Venue → Exchange
  | .binance => .binance
  | .okx => .okx
  | .bybit => .bybit
  | .mexc => .mexc
  | .gateio => .gateio

/-- The tickers are symbols with their volumes. -/
def Venue.fetchTopPairsByVolume (std : StdSort (String × ℚ)) (pairMap : List (String × String))
    (tickers : List (String × ℚ)) (limit : ℕ) (venue : Venue) : List (String × ℚ) :=
  let result := (tickers.map fun ticker => (venue.canonicalPair pairMap ticker.1, ticker.2)).filter
    fun entry => (find "-USDT".toList entry.1.toList).isSome
  (std.sort (fun a b => a.2 > b.2) result).take limit

/-- `tradeFee` is the client's `fetch_trade_fee`. Binance leaves the symbol in the answer. -/
def Venue.fetchFees (a : Adapter) (tradeFee : String → Except String FeeInfo) (pair : String)
    (venue : Venue) : Except String FeeInfo :=
  let fee := tradeFee (venue.normalizePair a pair)
  match venue with
  | .binance => fee
  | .okx | .bybit | .mexc | .gateio => fee.map fun info => { info with pair := pair }

theorem Venue.fetchFees_ok {venue : Venue} {a : Adapter} {tradeFee : String → Except String FeeInfo}
    {pair : String} {info : FeeInfo} (h : venue.fetchFees a tradeFee pair = .ok info) :
    ∃ fee, tradeFee (venue.normalizePair a pair) = .ok fee ∧
      info.makerFee = fee.makerFee ∧ info.takerFee = fee.takerFee := by
  unfold Venue.fetchFees at h
  cases hfee : tradeFee (venue.normalizePair a pair) with
  | error message =>
    rw [hfee] at h
    cases venue <;> cases h
  | ok fee =>
    rw [hfee] at h
    refine ⟨fee, rfl, ?_⟩
    cases venue <;> cases h <;> exact ⟨rfl, rfl⟩

/-- An exchange during one refresh: its tickers, and the fee of a symbol at each call. -/
structure RefreshSession where
  venue : Venue
  adapter : Adapter
  pairs : PairMap venue
  tickers : Except String (List (String × ℚ))
  tradeFee : ℕ → String → Except String FeeInfo

namespace RefreshSession

def symbolOf (s : RefreshSession) (pair : String) : String :=
  s.venue.normalizePair (s.adapter.withPairs s.pairs) pair

def answers (std : StdSort (String × ℚ)) (s : RefreshSession) : ExchangeAnswers where
  exchangeId := s.venue.exchange
  topPairs := s.tickers.map fun tickers =>
    (s.venue.fetchTopPairsByVolume std s.pairs.entries tickers 20).mapIdx fun call top =>
      { pairName := top.1
        volume := top.2
        fees := s.venue.fetchFees (s.adapter.withPairs s.pairs) (s.tradeFee call) top.1 }

/-- The fee is one that the exchange returned for the symbol of the pair. -/
def Returned (s : RefreshSession) (pair : String) (info : FeeInfo) : Prop :=
  ∃ call fee, s.tradeFee call (s.symbolOf pair) = .ok fee ∧
    info.makerFee = fee.makerFee ∧ info.takerFee = fee.takerFee

theorem fetched_returned {std : StdSort (String × ℚ)} {s : RefreshSession} {f : Fetch}
    (h : f ∈ (s.answers std).fetched) : f.exch = s.venue.exchange ∧ s.Returned f.pair f.info := by
  unfold ExchangeAnswers.fetched answers at h
  cases htickers : s.tickers with
  | error message =>
    rw [htickers] at h
    cases h
  | ok tickers =>
    rw [htickers] at h
    obtain ⟨top, htop, hfetched⟩ := List.mem_filterMap.mp h
    obtain ⟨call, hcall, rfl⟩ := List.mem_mapIdx.mp htop
    unfold TopPair.fetched at hfetched
    dsimp only at hfetched
    split at hfetched
    next info hinfo =>
      cases hfetched
      exact ⟨rfl, call, Venue.fetchFees_ok hinfo⟩
    next => cases hfetched

end RefreshSession

def refreshed (std : StdSort (String × ℚ)) (refreshes : List (List RefreshSession)) : FeeManager :=
  afterRefreshes (refreshes.map fun refresh => refresh.map (RefreshSession.answers std))

theorem Venue.exchange_injective {venue venue' : Venue} (h : venue.exchange = venue'.exchange) :
    venue = venue' := by
  cases venue <;> cases venue' <;> first | rfl | cases h

theorem latestFetch_mem {exch : Exchange} {pair : String} {fetches : List Fetch} {info : FeeInfo}
    (h : latestFetch exch pair fetches = some info) :
    ∃ f ∈ fetches, f.exch = exch ∧ f.pair = pair ∧ f.info = info := by
  obtain ⟨f, hlast, rfl⟩ := Option.map_eq_some_iff.mp h
  have hmem := List.mem_of_getLast? hlast
  rw [List.mem_filter, decide_eq_true_iff] at hmem
  exact ⟨f, hmem.1, hmem.2.1, hmem.2.2, rfl⟩

theorem refreshed_cache {std : StdSort (String × ℚ)} {refreshes : List (List RefreshSession)}
    {venue : Venue} {pair : String} {info : FeeInfo}
    (h : (refreshed std refreshes).feeCache pair venue.exchange = some info) :
    ∃ last ∈ refreshes.getLast?, ∃ s ∈ last, s.venue = venue ∧ s.Returned pair info := by
  rcases List.eq_nil_or_concat' refreshes with rfl | ⟨earlier, last, rfl⟩
  · cases h
  · refine ⟨last, by simp, ?_⟩
    unfold refreshed at h
    rw [List.map_append, List.map_singleton, afterRefreshes_concat, refreshAllFees_cache] at h
    obtain ⟨f, hf, hexch, rfl, rfl⟩ := latestFetch_mem h
    obtain ⟨answers, hanswers, hfetched⟩ := List.mem_flatMap.mp hf
    obtain ⟨s, hs, rfl⟩ := List.mem_map.mp hanswers
    obtain ⟨hvenue, hreturned⟩ := RefreshSession.fetched_returned hfetched
    exact ⟨s, hs, Venue.exchange_injective (hvenue.symm.trans hexch), hreturned⟩

/-- Reading back undoes the mapping unless Bybit or MEXC meet an earlier `USDT`; the
mapping never joins two pairs, and a cached fee is the one of the pair's own symbol. -/
theorem Venue.symbols_round_trip_iff {venue : Venue} (pairs : PairMap venue) (a : Adapter) {base : String}
    (hbase : TradedBase base) (std : StdSort (String × ℚ)) (refreshes : List (List RefreshSession)) :
    let native := venue.normalizePair (a.withPairs pairs) (base ++ "-USDT")
    (venue.canonicalPair pairs.entries native = base ++ "-USDT" ↔
        (venue = .bybit ∨ venue = .mexc → ¬ HoldsUsdt base)) ∧
      (∀ other, TradedBase other →
        venue.normalizePair (a.withPairs pairs) (other ++ "-USDT") = native → other = base) ∧
      ∀ info, (refreshed std refreshes).feeCache (base ++ "-USDT") venue.exchange = some info →
        ∃ last ∈ refreshes.getLast?, ∃ s ∈ last, s.venue = venue ∧ ∃ call fee,
          s.tradeFee call native = .ok fee ∧ info.makerFee = fee.makerFee ∧ info.takerFee = fee.takerFee := by
  have hnative := Venue.normalizePair_usdt pairs a hbase
  dsimp only
  rw [hnative]
  refine ⟨Venue.canonicalPair_usdt_iff pairs hbase, ?_, ?_⟩
  · intro other hother hsame
    rw [Venue.normalizePair_usdt pairs a hother] at hsame
    exact append_usdt_injective hsame
  · intro info hinfo
    obtain ⟨last, hlast, s, hs, rfl, call, fee, hfee, hsame⟩ := refreshed_cache hinfo
    refine ⟨last, hlast, s, hs, rfl, call, fee, ?_, hsame⟩
    rw [← hfee, RefreshSession.symbolOf, Venue.normalizePair_usdt s.pairs s.adapter hbase]

def bybitPairs : PairMap .bybit := ⟨Bybit.buildPairMap, List.Perm.refl _⟩

theorem tradedBase_ausdt : TradedBase "AUSDT" := ⟨by decide, by simp⟩

theorem symbols_round_trip_iff_ausdt :
    let native := Venue.bybit.normalizePair (plainAdapter.withPairs bybitPairs) ("AUSDT" ++ "-USDT")
    (Venue.bybit.canonicalPair bybitPairs.entries native = "AUSDT" ++ "-USDT" ↔
        (Venue.bybit = .bybit ∨ Venue.bybit = .mexc → ¬ HoldsUsdt "AUSDT")) ∧
      (∀ other, TradedBase other →
        Venue.bybit.normalizePair (plainAdapter.withPairs bybitPairs) (other ++ "-USDT") = native →
          other = "AUSDT") ∧
      ∀ info, (refreshed .mergeSort []).feeCache ("AUSDT" ++ "-USDT") Venue.bybit.exchange = some info →
        ∃ last ∈ ([] : List (List RefreshSession)).getLast?, ∃ s ∈ last, s.venue = .bybit ∧
          ∃ call fee, s.tradeFee call native = .ok fee ∧ info.makerFee = fee.makerFee ∧
            info.takerFee = fee.takerFee :=
  Venue.symbols_round_trip_iff bybitPairs plainAdapter tradedBase_ausdt .mergeSort []

/-- Bybit reads the symbol of AUSDT-USDT back as A-USDT. -/
theorem ausdt_read_back_as_a : ¬ ∀ (venue : Venue) (pairs : PairMap venue) (a : Adapter) (base : String),
    TradedBase base → venue.canonicalPair pairs.entries
      (venue.normalizePair (a.withPairs pairs) (base ++ "-USDT")) = base ++ "-USDT" := by
  intro h
  have hback := h .bybit bybitPairs plainAdapter "AUSDT" tradedBase_ausdt
  rw [Venue.normalizePair_usdt bybitPairs plainAdapter tradedBase_ausdt,
    Venue.canonicalPair_usdt_iff bybitPairs tradedBase_ausdt] at hback
  exact hback (.inl rfl) (by decide)

end CryptoArbBot
