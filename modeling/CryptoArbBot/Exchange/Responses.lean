import CryptoArbBot.Exchange.PlaceOrder

/-!
# The response a placed order is read from

Of the sends of one call the last one gives the response; `place_order` reads
its result from that response alone.
-/

namespace CryptoArbBot

/-- What `perform` returns for a reply it does not retry. -/
def Reply.response : Reply → HttpResponse
  | .curlError text => { statusCode := 0, body := "curl_error: " ++ text }
  | .http status body => { statusCode := status, body }

def receivedResponse (sends : List Delivery) : HttpResponse :=
  match sends.getLast? with
  | none => {}
  | some last => last.reply.response

theorem performLoop_response (server : Server) (request : HttpRequest) (left : ℕ)
    (response : HttpResponse) (log : List Delivery) :
    ∃ sends, (performLoop server request left response log).2 = log ++ sends ∧
      (left = 0 → sends = []) ∧
      (left ≠ 0 → sends ≠ [] ∧
        (performLoop server request left response log).1 = receivedResponse sends) := by
  induction left generalizing response log with
  | zero => exact ⟨[], (List.append_nil _).symm, fun _ => rfl, fun h => absurd rfl h⟩
  | succ left ih =>
    -- the reply is retried, so the rest of the loop gives the response
    have hretry : ∀ response' reply, left > 0 → ∃ sends,
        (performLoop server request left response'
            (log ++ [⟨request, (server log request).1, reply⟩])).2 = log ++ sends ∧
          sends ≠ [] ∧
          (performLoop server request left response'
            (log ++ [⟨request, (server log request).1, reply⟩])).1 = receivedResponse sends := by
      intro response' reply hleft
      obtain ⟨sends, hlog, -, hsends⟩ := ih response' (log ++ [⟨request, (server log request).1, reply⟩])
      obtain ⟨hne, hresponse⟩ := hsends hleft.ne'
      refine ⟨⟨request, (server log request).1, reply⟩ :: sends, ?_, List.cons_ne_nil _ _, ?_⟩
      · rw [hlog, List.append_assoc]
        rfl
      · rw [hresponse, receivedResponse, receivedResponse, List.getLast?_cons_of_ne_nil hne]
    have hstop : ∀ reply : Reply, ∃ sends,
        log ++ [⟨request, (server log request).1, reply⟩] = log ++ sends ∧ sends ≠ [] ∧
          reply.response = receivedResponse sends :=
      fun _ => ⟨_, rfl, List.cons_ne_nil _ _, rfl⟩
    have hgoal : ∃ sends, (performLoop server request (left + 1) response log).2 = log ++ sends ∧
        sends ≠ [] ∧
        (performLoop server request (left + 1) response log).1 = receivedResponse sends := by
      simp only [performLoop]
      cases hreply : (server log request).2 with
      | curlError text =>
        by_cases hleft : left > 0
        · simp only [hleft, if_true]
          exact hretry {} _ hleft
        · simp only [hleft, if_false]
          exact hstop _
      | http status body =>
        by_cases hagain : isRetryableStatus status = true ∧ left > 0
        · simp only [hagain.1, hagain.2, decide_true, Bool.and_self, if_true]
          exact hretry _ _ hagain.2
        · have hcond : (isRetryableStatus status && decide (left > 0)) = false := by
            simpa [← Bool.not_eq_true, Bool.and_eq_true] using hagain
          simp only [hcond, Bool.false_eq_true, if_false]
          exact hstop _
    obtain ⟨sends, hlog, hne, hresponse⟩ := hgoal
    exact ⟨sends, hlog, fun h => absurd h (Nat.succ_ne_zero left), fun _ => ⟨hne, hresponse⟩⟩

/-- The reading of the response in each `place_order`. -/
def Venue.readPlaced (P : Platform) (resp : HttpResponse) : Venue → Except String OrderResult
  | .binance => Binance.readPlaced P resp
  | .okx => .ok (Okx.parsePlaced (P.parseJson resp.body))
  | .bybit => .ok (Bybit.parsePlaced (P.parseJson resp.body))
  | .mexc => .ok (Mexc.parsePlaced (P.parseJson resp.body))
  | .gateio => .ok (Gateio.parsePlaced (P.parseJson resp.body))

theorem post_response (c : RestClient) (server : Server) (path body : String)
    (headers : List (String × String)) (log : List Delivery) :
    ∃ sends, (c.post server path body headers log).2 = log ++ sends ∧
      (c.post server path body headers log).1 = receivedResponse sends := by
  obtain ⟨sends, hlog, hnone, hsome⟩ := performLoop_response server
    { method := .post, url := c.baseUrl ++ path, body, headers := sentHeaders .post headers }
    (c.retryCount + 1).toNat {} log
  refine ⟨sends, hlog, ?_⟩
  by_cases hleft : (c.retryCount + 1).toNat = 0
  · rw [hnone hleft, RestClient.post, RestClient.perform, hleft]
    rfl
  · exact (hsome hleft).2

theorem placeLimitOrder_reads (P : Platform) (venue : Venue) (a : Adapter) (clock : Clock)
    (server : Server) (req : OrderRequest) (log : List Delivery) :
    ∃ sends, (venue.placeLimitOrder P a clock server req log).2 = log ++ sends ∧
      (venue.placeLimitOrder P a clock server req log).1 =
        venue.readPlaced P (receivedResponse sends) := by
  cases venue with
  | binance =>
    exact (post_response ..).imp fun _ h => ⟨h.1, congrArg (Venue.readPlaced P · .binance) h.2⟩
  | okx =>
    exact (post_response ..).imp fun _ h => ⟨h.1, congrArg (Venue.readPlaced P · .okx) h.2⟩
  | bybit =>
    exact (post_response ..).imp fun _ h => ⟨h.1, congrArg (Venue.readPlaced P · .bybit) h.2⟩
  | mexc =>
    exact (post_response ..).imp fun _ h => ⟨h.1, congrArg (Venue.readPlaced P · .mexc) h.2⟩
  | gateio =>
    exact (post_response ..).imp fun _ h => ⟨h.1, congrArg (Venue.readPlaced P · .gateio) h.2⟩

end CryptoArbBot
