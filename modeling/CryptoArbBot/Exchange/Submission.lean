import CryptoArbBot.Exchange.PlaceOrder

/-!
# How often an order reaches the exchange

One `place_limit_order` call posts one request, which the client repeats after
a curl error or a retryable status. The exchange may have processed a POST whose
reply asks for such a repetition, and no request carries the client order id.
-/

namespace CryptoArbBot

theorem post_attempts (c : RestClient) (server : Server) (path body : String)
    (headers : List (String × String)) (log : List Delivery) :
    ∃ request sends, (c.post server path body headers log).2 = log ++ sends ∧
      request.method = .post ∧ Attempts request (c.retryCount + 1).toNat sends := by
  obtain ⟨sends, hlog, hsends⟩ := performLoop_attempts server
    { method := .post, url := c.baseUrl ++ path, body, headers := sentHeaders .post headers }
    (c.retryCount + 1).toNat {} log
  exact ⟨_, sends, hlog, rfl, hsends⟩

theorem placeLimitOrder_attempts (P : Platform) (venue : Venue) (a : Adapter) (clock : Clock)
    (server : Server) (req : OrderRequest) (log : List Delivery) :
    ∃ request sends, (venue.placeLimitOrder P a clock server req log).2 = log ++ sends ∧
      request.method = .post ∧ Attempts request (a.client.retryCount + 1).toNat sends := by
  cases venue with
  | binance => exact post_attempts ..
  | okx => exact post_attempts ..
  | bybit => exact post_attempts ..
  | mexc => exact post_attempts ..
  | gateio => exact post_attempts ..

/-- The client order id has no influence on what is sent or answered. -/
theorem placeLimitOrder_clientOrderId (P : Platform) (venue : Venue) (a : Adapter) (clock : Clock)
    (server : Server) (req : OrderRequest) (id : String) (log : List Delivery) :
    venue.placeLimitOrder P a clock server { req with clientOrderId := id } log =
      venue.placeLimitOrder P a clock server req log := by
  cases venue <;> rfl

/-- One call sends at most `retry_count_ + 1` copies of one POST, repeats it only
after a curl error or a retryable status, and is processed at most once more
often than it is processed behind such a reply. -/
theorem placeLimitOrder_processed (P : Platform) (venue : Venue) (a : Adapter) (clock : Clock)
    (server : Server) (req : OrderRequest) (log : List Delivery) :
    ∃ request sends, (venue.placeLimitOrder P a clock server req log).2 = log ++ sends ∧
      request.method = .post ∧ Attempts request (a.client.retryCount + 1).toNat sends ∧
      processedCount sends ≤ 1 + hiddenCount sends ∧
      ((∀ d ∈ sends, d.processed = true → d.reply.retried = false) → processedCount sends ≤ 1) := by
  obtain ⟨request, sends, hlog, hpost, hsends⟩ :=
    placeLimitOrder_attempts P venue a clock server req log
  refine ⟨request, sends, hlog, hpost, hsends, hsends.processedCount_le, fun hclear => ?_⟩
  have hhidden : hiddenCount sends = 0 := by
    refine List.countP_eq_zero.mpr fun d hd => ?_
    cases hp : d.processed with
    | false => simp
    | true => simp [hclear d hd hp]
  have hle := hsends.processedCount_le
  omega

/-- Processes whatever it receives; the first reply is lost. -/
def lossyServer : Server := fun log _ =>
  match log with
  | [] => (true, .curlError "Timeout was reached")
  | _ :: _ => (true, .http 200 "{}")

def rawBytes (codes : List ℕ) : String := String.ofList (codes.map Char.ofNat)

def plainPlatform : Platform where
  hmacSha256 key text := key ++ text
  hmacSha512 key text := key ++ text
  base64Encode text := text
  sha512 text := text
  parseJson _ := .ok (.object [("retCode", .integer 0), ("result", .object [("orderId", .string "1")])])
  dumpJson _ := "{}"
  formatUtc _ := "1970-01-01T00:00:00.000Z"

def plainAdapter : Adapter where
  client := { baseUrl := "https://api.bybit.com" }
  apiKey := "key"
  secretKey := "secret"
  pairMap := fun _ => none

def plainOrder : OrderRequest :=
  { exchange := .bybit, pair := "BTC-USDT", side := .buy, price := 100, quantity := 1,
    clientOrderId := "a" }

/-- A lost reply to a processed POST makes Bybit's default client place the
order twice. -/
theorem placeLimitOrder_processed_twice :
    ¬ ∀ (P : Platform) (venue : Venue) (a : Adapter) (clock : Clock) (server : Server)
        (req : OrderRequest),
      processedCount (venue.placeLimitOrder P a clock server req []).2 ≤ 1 := by
  intro h
  have htwice : processedCount (Venue.bybit.placeLimitOrder plainPlatform plainAdapter (fun _ => 0)
      lossyServer plainOrder []).2 = 2 := by
    decide +kernel
  have hle := h plainPlatform .bybit plainAdapter (fun _ => 0) lossyServer plainOrder
  omega

end CryptoArbBot
