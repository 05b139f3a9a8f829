import CryptoArbBot.Exchange.AccountAnswers
import CryptoArbBot.Strategy.CachedFees

/-!
# Fees from answers (strategy/fee_manager.cpp, exchange/*/*_rest.cpp)

The clients charge their own defaults where an answer cannot be read, Binance
excepted, and the manager charges its defaults where nothing is cached. Both
tables hold the same rates.
-/

namespace CryptoArbBot
open FeeManager

/-! ### What a client makes of an answer -/

theorem FeeInfo.tryFees_nonneg {info : FeeInfo} (h : 0 ≤ info.makerFee ∧ 0 ≤ info.takerFee)
    {maker taker : Except String (Option ℚ)} (hmaker : ∀ fee, maker = .ok (some fee) → 0 ≤ fee)
    (htaker : ∀ fee, taker = .ok (some fee) → 0 ≤ fee) :
    0 ≤ (info.tryFees maker taker).makerFee ∧ 0 ≤ (info.tryFees maker taker).takerFee := by
  have hdefault : ∀ {read : Option ℚ} {rate : ℚ}, (∀ fee, read = some fee → 0 ≤ fee) → 0 ≤ rate →
      0 ≤ read.getD rate := by
    intro read rate hread hrate
    cases read with
    | none => exact hrate
    | some fee => exact hread fee rfl
  unfold FeeInfo.tryFees
  cases maker with
  | error e => exact h
  | ok maker =>
    have hfirst : 0 ≤ maker.getD info.makerFee :=
      hdefault (fun fee hfee => hmaker fee (congrArg Except.ok hfee)) h.1
    cases taker with
    | error e => exact ⟨hfirst, h.2⟩
    | ok taker => exact ⟨hfirst, hdefault (fun fee hfee => htaker fee (congrArg Except.ok hfee)) h.2⟩

theorem abs_read_nonneg {read : Except String (Option ℚ)} {fee : ℚ}
    (h : read.map (·.map abs) = .ok (some fee)) : 0 ≤ fee := by
  cases read with
  | error e => cases h
  | ok read =>
    obtain ⟨rate, -, rfl⟩ := Option.map_eq_some_iff.mp (Except.ok.inj h)
    exact abs_nonneg rate

theorem Okx.readTradeFee_nonneg (instId : String) (parsed : Except String Json) :
    0 ≤ (readTradeFee instId parsed).makerFee ∧ 0 ≤ (readTradeFee instId parsed).takerFee := by
  have hdefaults : (0 : ℚ) ≤ 8 / 10000 ∧ (0 : ℚ) ≤ 1 / 1000 := by norm_num
  unfold readTradeFee
  cases queriedEntry parsed with
  | error e => exact hdefaults
  | ok entry =>
    cases entry with
    | none => exact hdefaults
    | some d =>
      exact FeeInfo.tryFees_nonneg hdefaults (fun _ => abs_read_nonneg) fun _ => abs_read_nonneg

theorem Bybit.readTradeFee_nonneg (symbol : String) (parsed : Except String Json) :
    0 ≤ (readTradeFee symbol parsed).makerFee ∧ 0 ≤ (readTradeFee symbol parsed).takerFee := by
  have hdefaults : (0 : ℚ) ≤ 1 / 1000 ∧ (0 : ℚ) ≤ 1 / 1000 := by norm_num
  unfold readTradeFee
  cases queriedEntry parsed with
  | error e => exact hdefaults
  | ok entry =>
    cases entry with
    | none => exact hdefaults
    | some d =>
      exact FeeInfo.tryFees_nonneg hdefaults (fun _ => abs_read_nonneg) fun _ => abs_read_nonneg

/-- The client of the exchange cannot make anything of the answer. -/
def Venue.Unreadable (P : Platform) (resp : HttpResponse) : Venue → Prop
  | .binance => resp.statusCode ≠ 200 ∨ ∃ e, P.parseJson resp.body = .error e
  | .okx | .bybit | .mexc | .gateio => ∃ e, P.parseJson resp.body = .error e

/-- The rates of two fees are the same. -/
def FeeInfo.SameRates (info info' : FeeInfo) : Prop :=
  info.makerFee = info'.makerFee ∧ info.takerFee = info'.takerFee

/-- The defaults of the client are those of the manager. -/
theorem Venue.readTradeFee_unreadable {P : Platform} {apiKey symbol : String} {resp : HttpResponse}
    {venue : Venue} (h : venue.Unreadable P resp) {info : FeeInfo}
    (hread : venue.readTradeFee P apiKey symbol resp = .ok info) (pair : String) :
    info.SameRates (defaultFeeForExchange venue.exchange pair) := by
  cases venue with
  | binance =>
    have hread' : Binance.readTradeFee P symbol resp = .ok info := hread
    rw [Binance.readTradeFee] at hread'
    rcases h with hstatus | ⟨e, he⟩
    · rw [if_pos hstatus] at hread'
      cases hread'
    · rw [he] at hread'
      split at hread' <;> cases hread'
  | okx =>
    obtain ⟨e, he⟩ := h
    cases (congrArg (fun parsed => Except.ok (Okx.readTradeFee symbol parsed)) he).symm.trans hread
    exact ⟨rfl, rfl⟩
  | bybit =>
    obtain ⟨e, he⟩ := h
    cases (congrArg (fun parsed => Except.ok (Bybit.readTradeFee symbol parsed)) he).symm.trans hread
    exact ⟨rfl, rfl⟩
  | mexc =>
    obtain ⟨e, he⟩ := h
    cases (congrArg (fun parsed => Except.ok (Mexc.readTradeFee apiKey symbol parsed)) he).symm.trans hread
    unfold Mexc.readTradeFee
    split <;> exact ⟨rfl, rfl⟩
  | gateio =>
    obtain ⟨e, he⟩ := h
    cases (congrArg (fun parsed => Except.ok (Gateio.readTradeFee apiKey symbol parsed)) he).symm.trans hread
    unfold Gateio.readTradeFee
    split <;> exact ⟨rfl, rfl⟩

/-! ### Refreshes over the network -/

/-- An exchange during one refresh: its tickers, and what each fee call meets. -/
structure Poll where
  venue : Venue
  adapter : Adapter
  pairs : PairMap venue
  tickers : Except String (List (String × ℚ))
  calls : ℕ → Connection

namespace Poll
variable (P : Platform) (escape : String → String)

def answer (poll : Poll) (call : ℕ) (symbol : String) : HttpResponse :=
  poll.venue.answer P escape (.tradeFee symbol) { poll.calls call with adapter := poll.adapter }

def tradeFee (poll : Poll) (call : ℕ) (symbol : String) : Except String FeeInfo :=
  poll.venue.readTradeFee P poll.adapter.apiKey symbol (poll.answer P escape call symbol)

def session (poll : Poll) : RefreshSession :=
  { poll with tradeFee := poll.tradeFee P escape }

/-- The exchange's own symbol for the pair. -/
def symbolOf (poll : Poll) (pair : String) : String :=
  poll.venue.normalizePair (poll.adapter.withPairs poll.pairs) pair

end Poll

section Refreshes
variable (P : Platform) (escape : String → String) (std : StdSort (String × ℚ))

def polled (refreshes : List (List Poll)) : FeeManager :=
  refreshed std (refreshes.map fun refresh => refresh.map (Poll.session P escape))

variable {P escape std}

theorem polled_cache {refreshes : List (List Poll)} {venue : Venue} {pair : String} {info : FeeInfo}
    (h : (polled P escape std refreshes).feeCache pair venue.exchange = some info) :
    ∃ last ∈ refreshes.getLast?, ∃ poll ∈ last, poll.venue = venue ∧ ∃ call read,
      poll.tradeFee P escape call (poll.symbolOf pair) = .ok read ∧ info.SameRates read := by
  obtain ⟨sessions, hsessions, s, hs, hvenue, call, read, hread, hrates⟩ := refreshed_cache h
  rw [List.getLast?_map, Option.mem_def, Option.map_eq_some_iff] at hsessions
  obtain ⟨last, hlast, rfl⟩ := hsessions
  obtain ⟨poll, hpoll, rfl⟩ := List.mem_map.mp hs
  exact ⟨last, hlast, poll, hpoll, hvenue, call, read, hread, hrates⟩

theorem getFee_cases (refreshes : List (List Poll)) (venue : Venue) (pair : String) :
    let fee := (polled P escape std refreshes).getFee venue.exchange pair
    fee = defaultFeeForExchange venue.exchange pair ∨
      ∃ last ∈ refreshes.getLast?, ∃ poll ∈ last, poll.venue = venue ∧ ∃ call read,
        poll.tradeFee P escape call (poll.symbolOf pair) = .ok read ∧ fee.SameRates read := by
  intro fee
  cases hcache : (polled P escape std refreshes).feeCache pair venue.exchange with
  | none =>
    refine .inl ?_
    show (polled P escape std refreshes).getFee venue.exchange pair = _
    rw [getFee, hcache]
  | some info =>
    have hfee : fee = info := by
      show (polled P escape std refreshes).getFee venue.exchange pair = _
      rw [getFee, hcache]
    rw [hfee]
    exact .inr (polled_cache hcache)

/-- After any refreshes the fee in force is the default or was read in the last refresh from
an answer about the exchange's own symbol of the pair. Where that refresh brought no readable
answer the default rates are charged, also for the sum of two legs, and OKX and Bybit never
charge less than nothing. -/
theorem fees_from_answers (refreshes : List (List Poll)) (pair : String) :
    let fees := polled P escape std refreshes
    let silent : Venue → Prop := fun venue => ∀ last ∈ refreshes.getLast?, ∀ poll ∈ last, poll.venue = venue →
      ∀ call, venue.Unreadable P (poll.answer P escape call (poll.symbolOf pair))
    (∀ venue : Venue, fees.getFee venue.exchange pair = defaultFeeForExchange venue.exchange pair ∨
      ∃ last ∈ refreshes.getLast?, ∃ poll ∈ last, poll.venue = venue ∧ ∃ call read,
        poll.tradeFee P escape call (poll.symbolOf pair) = .ok read ∧
          (fees.getFee venue.exchange pair).SameRates read) ∧
    (∀ venue, silent venue →
      (fees.getFee venue.exchange pair).SameRates (defaultFeeForExchange venue.exchange pair)) ∧
    (∀ buy sell, silent buy → silent sell → fees.totalFeeRate buy.exchange sell.exchange pair =
      (defaultFeeForExchange buy.exchange pair).takerFee + (defaultFeeForExchange sell.exchange pair).takerFee) ∧
    ∀ venue : Venue, venue = .okx ∨ venue = .bybit → 0 ≤ (fees.getFee venue.exchange pair).makerFee ∧
      0 ≤ (fees.getFee venue.exchange pair).takerFee := by
  intro fees silent
  have hcases := fun venue : Venue => @getFee_cases P escape std refreshes venue pair
  have hsilent : ∀ venue, silent venue →
      (fees.getFee venue.exchange pair).SameRates (defaultFeeForExchange venue.exchange pair) := by
    intro venue hvenue
    rcases hcases venue with hdefault | ⟨last, hlast, poll, hpoll, rfl, call, read, hread, hrates⟩
    · rw [show fees.getFee venue.exchange pair = _ from hdefault]
      exact ⟨rfl, rfl⟩
    · have hsame := Venue.readTradeFee_unreadable (hvenue last hlast poll hpoll rfl call) hread pair
      exact ⟨hrates.1.trans hsame.1, hrates.2.trans hsame.2⟩
  refine ⟨hcases, hsilent, ?_, ?_⟩
  · intro buy sell hbuy hsell
    rw [totalFeeRate_eq, (hsilent buy hbuy).2, (hsilent sell hsell).2]
  · intro venue hvenue
    rcases hcases venue with hdefault | ⟨last, hlast, poll, hpoll, hpolled, call, read, hread, hrates⟩
    · rw [show fees.getFee venue.exchange pair = _ from hdefault]
      rcases hvenue with rfl | rfl
      · norm_num [defaultFeeForExchange, Venue.exchange]
      · norm_num [defaultFeeForExchange, Venue.exchange]
    · have hnonneg : 0 ≤ read.makerFee ∧ 0 ≤ read.takerFee := by
        unfold Poll.tradeFee at hread
        rcases hvenue with rfl | rfl
        · rw [hpolled] at hread
          cases hread
          exact Okx.readTradeFee_nonneg _ _
        · rw [hpolled] at hread
          cases hread
          exact Bybit.readTradeFee_nonneg _ _
      rw [hrates.1, hrates.2]
      exact hnonneg

end Refreshes

end CryptoArbBot
