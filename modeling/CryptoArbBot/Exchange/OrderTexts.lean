import CryptoArbBot.Common.DecimalText
import CryptoArbBot.Exchange.Submission

/-!
# The numbers in a placed order

The Binance client writes price and quantity with `ostream <<`, the other four
with `std::to_string`. On the tick grids the second is exact and the first is
exact on the numbers that have no more than six significant digits.
-/

namespace CryptoArbBot

structure OrderTexts where
  price : String
  quantity : String
  deriving DecidableEq, Repr

def Venue.orderTexts (price quantity : ℚ) : Venue → OrderTexts
  | .binance => ⟨ostreamDouble price, ostreamDouble quantity⟩
  | .okx | .bybit | .mexc | .gateio => ⟨toStringDouble price, toStringDouble quantity⟩

/-- The texts stand in the request where the exchange reads the price and the quantity. -/
def Venue.Carries (P : Platform) (texts : OrderTexts) (request : HttpRequest) : Venue → Prop
  | .binance => ∃ front back,
      request.url = front ++ "&quantity=" ++ texts.quantity ++ "&price=" ++ texts.price ++
        "&timestamp=" ++ back
  | .mexc => ∃ front back,
      request.url = front ++ "&price=" ++ texts.price ++ "&quantity=" ++ texts.quantity ++
        "&timestamp=" ++ back
  | .okx => ∃ body, request.body = P.dumpJson body ∧ body.member? "px" = some (.string texts.price) ∧
      body.member? "sz" = some (.string texts.quantity)
  | .bybit => ∃ body, request.body = P.dumpJson body ∧
      body.member? "price" = some (.string texts.price) ∧
      body.member? "qty" = some (.string texts.quantity)
  | .gateio => ∃ body, request.body = P.dumpJson body ∧
      body.member? "price" = some (.string texts.price) ∧
      body.member? "amount" = some (.string texts.quantity)

/-! ### What is sent -/

theorem post_sends (c : RestClient) (server : Server) (path body : String)
    (headers : List (String × String)) (log : List Delivery) :
    ∃ sends, (c.post server path body headers log).2 = log ++ sends ∧
      ∀ d ∈ sends, d.request.url = c.baseUrl ++ path ∧ d.request.body = body := by
  obtain ⟨sends, hlog, hsends⟩ := performLoop_attempts server
    { method := .post, url := c.baseUrl ++ path, body, headers := sentHeaders .post headers }
    (c.retryCount + 1).toNat {} log
  refine ⟨sends, hlog, ?_⟩
  intro d hd
  rw [hsends.same d hd]
  exact ⟨rfl, rfl⟩

theorem binance_signRequest (P : Platform) (a : Adapter) (nowMs : ℕ) (queryString : String)
    (h : queryString ≠ "") :
    ∃ back, Binance.signRequest P a nowMs queryString = queryString ++ "&timestamp=" ++ back := by
  have hmark : "&timestamp=" = "&" ++ "timestamp=" := rfl
  unfold Binance.signRequest
  rw [if_pos h, hmark]
  refine ⟨?back, ?same⟩
  case same =>
    simp only [String.append_assoc]
    rfl

theorem placeLimitOrder_carries (P : Platform) (venue : Venue) (a : Adapter) (clock : Clock)
    (server : Server) (req : OrderRequest) (log : List Delivery) :
    ∃ sends, (venue.placeLimitOrder P a clock server req log).2 = log ++ sends ∧
      ∀ d ∈ sends, venue.Carries P (venue.orderTexts req.price req.quantity) d.request := by
  cases venue with
  | binance =>
    obtain ⟨sends, hlog, hsends⟩ := post_sends a.client server _ _ _ log
    refine ⟨sends, hlog, ?_⟩
    intro d hd
    have hurl := (hsends d hd).1
    obtain ⟨back, hback⟩ := binance_signRequest P a (clock 0) ("symbol=" ++
      Binance.normalizePair a req.pair ++ "&side=" ++ (if req.side = .buy then "BUY" else "SELL") ++
      "&type=" ++ "LIMIT" ++ "&timeInForce=GTC" ++ "&quantity=" ++ ostreamDouble req.quantity ++
      "&price=" ++ ostreamDouble req.price) (by simp)
    refine ⟨a.client.baseUrl ++ "/api/v3/order?" ++ "symbol=" ++ Binance.normalizePair a req.pair ++
      "&side=" ++ (if req.side = .buy then "BUY" else "SELL") ++ "&type=" ++ "LIMIT" ++
      "&timeInForce=GTC", back, ?_⟩
    rw [hurl, hback]
    simp only [String.append_assoc]
    rfl
  | mexc =>
    obtain ⟨sends, hlog, hsends⟩ := post_sends a.client server _ _ _ log
    refine ⟨sends, hlog, ?_⟩
    intro d hd
    refine ⟨a.client.baseUrl ++ "/api/v3/order?" ++ "symbol=" ++ Mexc.normalizePair a req.pair ++
      "&side=" ++ (if req.side = .buy then "BUY" else "SELL") ++ "&type=LIMIT", ?back, ?url⟩
    case url =>
      rw [(hsends d hd).1]
      simp only [String.append_assoc]
      rfl
  | okx =>
    obtain ⟨sends, hlog, hsends⟩ := post_sends a.client server _ _ _ log
    exact ⟨sends, hlog, fun d hd => ⟨_, (hsends d hd).2, rfl, rfl⟩⟩
  | bybit =>
    obtain ⟨sends, hlog, hsends⟩ := post_sends a.client server _ _ _ log
    exact ⟨sends, hlog, fun d hd => ⟨_, (hsends d hd).2, rfl, rfl⟩⟩
  | gateio =>
    obtain ⟨sends, hlog, hsends⟩ := post_sends a.client server _ _ _ log
    exact ⟨sends, hlog, fun d hd => ⟨_, (hsends d hd).2, rfl, rfl⟩⟩

/-! ### The tick grids -/

/-- A positive multiple of 0.01 below ten millions. -/
def PriceTick (price : ℚ) : Prop := 0 < price ∧ price < 10 ^ 7 ∧ ∃ n : ℕ, price = n / 100

/-- A positive multiple of 0.000001 below a hundred thousand. -/
def QuantityTick (quantity : ℚ) : Prop := 0 < quantity ∧ quantity < 10 ^ 5 ∧ ∃ n : ℕ, quantity = n / 10 ^ 6

theorem one_le_of_tick {n : ℕ} {scale : ℚ} (h : 0 < n / scale) : (1 : ℚ) ≤ n := by
  have hn : n ≠ 0 := by
    rintro rfl
    rw [Nat.cast_zero, zero_div] at h
    exact lt_irrefl _ h
  exact_mod_cast Nat.one_le_iff_ne_zero.mpr hn

theorem PriceTick.not_outOfRange {price : ℚ} (h : PriceTick price) : ¬ OutOfRange price := by
  obtain ⟨hpos, hlt, n, rfl⟩ := h
  have hone := one_le_of_tick hpos
  refine CryptoArbBot.not_outOfRange ?_ hlt.le
  linarith

theorem QuantityTick.not_outOfRange {quantity : ℚ} (h : QuantityTick quantity) :
    ¬ OutOfRange quantity := by
  obtain ⟨hpos, hlt, n, rfl⟩ := h
  have hone := one_le_of_tick hpos
  refine CryptoArbBot.not_outOfRange ?_ (hlt.le.trans (by norm_num))
  linarith

theorem PriceTick.toString_exact {price x : ℚ} (h : PriceTick price) (hx : StandsFor x price) :
    stod (toStringDouble x) = .ok price := by
  have hrange := h.not_outOfRange
  obtain ⟨hpos, hlt, n, hn⟩ := h
  have hscaled : price * 10 ^ 6 = ((n * 10 ^ 4 : ℕ) : ℚ) := by
    rw [hn]
    push_cast
    ring
  have hsize : n * 10 ^ 4 < 2 ^ 52 := by
    have hcast : ((n * 10 ^ 4 : ℕ) : ℚ) < ((10 ^ 13 : ℕ) : ℚ) := by
      rw [← hscaled]
      push_cast
      linarith
    have hlt' : n * 10 ^ 4 < 10 ^ 13 := by exact_mod_cast hcast
    omega
  rw [stod_toStringDouble hx hscaled hsize (hx.pos hpos).le]
  exact inRange_ok hrange

theorem QuantityTick.toString_exact {quantity x : ℚ} (h : QuantityTick quantity)
    (hx : StandsFor x quantity) : stod (toStringDouble x) = .ok quantity := by
  have hrange := h.not_outOfRange
  obtain ⟨hpos, hlt, n, hn⟩ := h
  have hscaled : quantity * 10 ^ 6 = (n : ℚ) := by
    rw [hn]
    ring
  have hsize : n < 2 ^ 52 := by
    have hcast : (n : ℚ) < ((10 ^ 11 : ℕ) : ℚ) := by
      rw [← hscaled]
      push_cast
      linarith
    have hlt' : n < 10 ^ 11 := by exact_mod_cast hcast
    omega
  rw [stod_toStringDouble hx hscaled hsize (hx.pos hpos).le]
  exact inRange_ok hrange

/-! ### The five exchanges -/

theorem Venue.orderTexts_exact_iff (venue : Venue) {price quantity x y : ℚ} (hprice : PriceTick price)
    (hquantity : QuantityTick quantity) (hx : StandsFor x price) (hy : StandsFor y quantity) :
    (stod (venue.orderTexts x y).price = .ok price ∧ stod (venue.orderTexts x y).quantity = .ok quantity) ↔
      (venue = .binance → SixDigits price ∧ SixDigits quantity) := by
  have hexact := And.intro (hprice.toString_exact hx) (hquantity.toString_exact hy)
  cases venue with
  | binance =>
    have hsix := and_congr (ostreamDouble_exact_iff hprice.1 hprice.not_outOfRange hx)
      (ostreamDouble_exact_iff hquantity.1 hquantity.not_outOfRange hy)
    exact hsix.trans ⟨fun h _ => h, fun h => h rfl⟩
  | okx => exact iff_of_true hexact fun h => by cases h
  | bybit => exact iff_of_true hexact fun h => by cases h
  | mexc => exact iff_of_true hexact fun h => by cases h
  | gateio => exact iff_of_true hexact fun h => by cases h

/-- Every request of an order on the tick grids carries a price and a quantity that
denote exactly the ticks, unless it goes to Binance with a number of more than six digits. -/
theorem placedOrder_exact_iff (P : Platform) (venue : Venue) (a : Adapter) (clock : Clock)
    (server : Server) (req : OrderRequest) (log : List Delivery) {price quantity : ℚ}
    (hprice : PriceTick price) (hquantity : QuantityTick quantity)
    (hpriceArg : StandsFor req.price price) (hquantityArg : StandsFor req.quantity quantity) :
    let texts := venue.orderTexts req.price req.quantity
    (∃ sends, (venue.placeLimitOrder P a clock server req log).2 = log ++ sends ∧
        ∀ d ∈ sends, venue.Carries P texts d.request) ∧
      ((stod texts.price = .ok price ∧ stod texts.quantity = .ok quantity) ↔
        (venue = .binance → SixDigits price ∧ SixDigits quantity)) :=
  ⟨placeLimitOrder_carries P venue a clock server req log,
    venue.orderTexts_exact_iff hprice hquantity hpriceArg hquantityArg⟩

/-- An order for 0.5 at 64000.25. -/
def centOrder : OrderRequest :=
  { exchange := .okx, pair := "BTC-USDT", side := .buy, price := 6400025 / 100, quantity := 1 / 2,
    clientOrderId := "a" }

theorem centOrder_priceTick : PriceTick centOrder.price :=
  ⟨by norm_num [centOrder], by norm_num [centOrder], 6400025, by norm_num [centOrder]⟩

theorem centOrder_quantityTick : QuantityTick centOrder.quantity :=
  ⟨by norm_num [centOrder], by norm_num [centOrder], 500000, by norm_num [centOrder]⟩

theorem centOrder_okx :
    let texts := Venue.okx.orderTexts centOrder.price centOrder.quantity
    (∃ sends, (Venue.okx.placeLimitOrder plainPlatform plainAdapter (fun _ => 0) lossyServer centOrder []).2 =
        [] ++ sends ∧ ∀ d ∈ sends, Venue.okx.Carries plainPlatform texts d.request) ∧
      ((stod texts.price = .ok centOrder.price ∧ stod texts.quantity = .ok centOrder.quantity) ↔
        (Venue.okx = .binance → SixDigits centOrder.price ∧ SixDigits centOrder.quantity)) :=
  placedOrder_exact_iff plainPlatform .okx plainAdapter (fun _ => 0) lossyServer centOrder []
    centOrder_priceTick centOrder_quantityTick (.refl centOrder_priceTick.1.le)
    (.refl centOrder_quantityTick.1.le)

/-- Binance is asked to buy at 64000.2. -/
theorem centOrder_binance_rounded :
    PriceTick centOrder.price ∧ QuantityTick centOrder.quantity ∧
      stod (Venue.binance.orderTexts centOrder.price centOrder.quantity).price ≠ .ok centOrder.price := by
  refine ⟨centOrder_priceTick, centOrder_quantityTick, ?_⟩
  decide +kernel

end CryptoArbBot
