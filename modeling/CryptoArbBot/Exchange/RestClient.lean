import CryptoArbBot.Common.Types

/-!
# The HTTP client with retries (exchange/rest_client.cpp)

The server is any party that answers each request it gets, in view of all
earlier ones, and decides whether it processes the request. A reply may be lost
on the way, which curl reports as an error. The log keeps every send in order.
-/

namespace CryptoArbBot

inductive Method where
  | get | post | delete
  deriving DecidableEq, Repr

structure HttpRequest where
  method : Method
  url : String
  body : String
  headers : List (String × String)
  deriving DecidableEq, Repr

structure HttpResponse where
  statusCode : ℤ := 0
  body : String := ""
  deriving DecidableEq, Repr

inductive Reply where
  | curlError (text : String)
  | http (status : ℤ) (body : String)
  deriving DecidableEq, Repr

/-- One send, whether the server processed it, and its reply. -/
structure Delivery where
  request : HttpRequest
  processed : Bool
  reply : Reply
  deriving DecidableEq, Repr

abbrev Server := List Delivery → HttpRequest → Bool × Reply

structure RestClient where
  baseUrl : String
  retryCount : ℤ := 3

def isRetryableStatus (status : ℤ) : Bool :=
  status = 429 || status = 500 || status = 502 || status = 503 || status = 504

/-- The loop of `perform` with `left` attempts to go; the response of an
attempt that is repeated is dropped. -/
def performLoop (server : Server) (request : HttpRequest) :
    ℕ → HttpResponse → List Delivery → HttpResponse × List Delivery
  | 0, response, log => (response, log)
  | left + 1, _, log =>
    let (processed, reply) := server log request
    let log := log ++ [⟨request, processed, reply⟩]
    match reply with
    | .curlError text =>
      if left > 0 then performLoop server request left {} log
      else ({ statusCode := 0, body := "curl_error: " ++ text }, log)
    | .http status body =>
      if isRetryableStatus status && decide (left > 0) then
        performLoop server request left { statusCode := status, body } log
      else ({ statusCode := status, body }, log)

/-- A POST without a content type is sent as JSON. -/
def sentHeaders (method : Method) (headers : List (String × String)) : List (String × String) :=
  if method = .post ∧ (headers.find? fun h => h.1 = "Content-Type") = none then
    headers ++ [("Content-Type", "application/json")]
  else headers

/-- `perform`: `retry_count_ + 1` attempts. -/
def RestClient.perform (c : RestClient) (server : Server) (method : Method) (url body : String)
    (headers : List (String × String)) (log : List Delivery) : HttpResponse × List Delivery :=
  performLoop server { method, url, body, headers := sentHeaders method headers }
    (c.retryCount + 1).toNat {} log

def RestClient.post (c : RestClient) (server : Server) (path body : String)
    (headers : List (String × String)) (log : List Delivery) : HttpResponse × List Delivery :=
  c.perform server .post (c.baseUrl ++ path) body headers log

/-! ### What one call sends -/

def Reply.retried : Reply → Bool
  | .curlError _ => true
  | .http status _ => isRetryableStatus status

def processedCount (sends : List Delivery) : ℕ := sends.countP (·.processed)

/-- Sends that were processed although their reply asks for a repetition. -/
def hiddenCount (sends : List Delivery) : ℕ :=
  sends.countP fun d => d.processed && d.reply.retried

/-- The sends of one call: copies of one request, of which every one but the
last was answered by a reply that is retried. -/
structure Attempts (request : HttpRequest) (bound : ℕ) (sends : List Delivery) : Prop where
  count : sends.length ≤ bound
  same : ∀ d ∈ sends, d.request = request
  retried : ∀ d ∈ sends.dropLast, d.reply.retried = true

theorem attempts_single {request : HttpRequest} {bound : ℕ} (d : Delivery)
    (hd : d.request = request) : Attempts request (bound + 1) [d] where
  count := by simp
  same e he := by rw [List.mem_singleton.mp he, hd]
  retried := by simp

theorem Attempts.cons {request : HttpRequest} {bound : ℕ} {sends : List Delivery}
    (h : Attempts request bound sends) (d : Delivery) (hd : d.request = request)
    (hretried : d.reply.retried = true) : Attempts request (bound + 1) (d :: sends) where
  count := by simpa using h.count
  same e he := by
    rcases List.mem_cons.mp he with rfl | he
    · exact hd
    · exact h.same e he
  retried e he := by
    cases sends with
    | nil => simp at he
    | cons e' sends =>
      rw [List.dropLast_cons_cons] at he
      rcases List.mem_cons.mp he with rfl | he
      · exact hretried
      · exact h.retried e he

theorem performLoop_attempts (server : Server) (request : HttpRequest) (left : ℕ)
    (response : HttpResponse) (log : List Delivery) :
    ∃ sends, (performLoop server request left response log).2 = log ++ sends ∧
      Attempts request left sends := by
  induction left generalizing response log with
  | zero => exact ⟨[], by simp [performLoop], by simp, by simp, by simp⟩
  | succ left ih =>
    have hretry : ∀ response' reply, reply.retried = true →
        ∃ sends, (performLoop server request left response'
            (log ++ [⟨request, (server log request).1, reply⟩])).2 = log ++ sends ∧
          Attempts request (left + 1) sends := by
      intro response' reply hretried
      obtain ⟨sends, hlog, hsends⟩ := ih response' (log ++ [⟨request, (server log request).1, reply⟩])
      refine ⟨_, ?_, hsends.cons ⟨request, (server log request).1, reply⟩ rfl hretried⟩
      rw [hlog, List.append_assoc]
      rfl
    have hstop : ∀ reply, ∃ sends,
        log ++ [⟨request, (server log request).1, reply⟩] = log ++ sends ∧
          Attempts request (left + 1) sends :=
      fun reply => ⟨_, rfl, attempts_single _ rfl⟩
    simp only [performLoop]
    cases hreply : (server log request).2 with
    | curlError text =>
      by_cases hleft : left > 0
      · simp only [hleft, if_true]
        exact hretry {} _ rfl
      · simp only [hleft, if_false]
        exact hstop _
    | http status body =>
      by_cases hagain : isRetryableStatus status = true ∧ left > 0
      · simp only [hagain.1, hagain.2, decide_true, Bool.and_self, if_true]
        exact hretry _ _ hagain.1
      · have hcond : (isRetryableStatus status && decide (left > 0)) = false := by
          simpa [← Bool.not_eq_true, Bool.and_eq_true] using hagain
        simp only [hcond, Bool.false_eq_true, if_false]
        exact hstop _

theorem Attempts.processedCount_le {request : HttpRequest} {bound : ℕ} {sends : List Delivery}
    (h : Attempts request bound sends) : processedCount sends ≤ 1 + hiddenCount sends := by
  rcases List.eq_nil_or_concat sends with rfl | ⟨front, last, rfl⟩
  · simp [processedCount]
  · have hfront : front.countP (·.processed) = front.countP fun d => d.processed && d.reply.retried := by
      refine List.countP_congr fun d hd => ?_
      have hretried := h.retried d (by simpa using hd)
      simp [hretried]
    have hlast : [last].countP (·.processed) ≤ 1 := List.countP_le_length
    simp only [processedCount, hiddenCount, List.concat_eq_append, List.countP_append, hfront]
    omega

end CryptoArbBot
