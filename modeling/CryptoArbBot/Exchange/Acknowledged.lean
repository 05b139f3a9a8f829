import CryptoArbBot.Exchange.Responses
import CryptoArbBot.Exchange.Submission

/-!
# Which placed orders are reported as rejected

A placed order counts as live or filled only when the exchange has named it. Each
adapter has its own way to miss that: OKX keeps the default status without a
`data` entry, Binance lets a parse error out, and none of them looks at an empty
order id.
-/

namespace CryptoArbBot

def OrderStatus.accepted : OrderStatus → Bool
  | .opened | .partiallyFilled | .filled => true
  | .pending | .cancelled | .rejected => false

/-- The body names the order it accepted. -/
def Venue.Acknowledges (j : Json) : Venue → Prop
  | .binance => j.contains "orderId" = true
  | .okx => ∃ data d id, j.member? "data" = some data ∧ data.first = .ok d ∧
      d.valueString "ordId" "" = .ok id ∧ id ≠ ""
  | .bybit => ∃ result id, j.member? "result" = some result ∧
      result.valueString "orderId" "" = .ok id ∧ id ≠ ""
  | .mexc => ∃ id, j.valueString "orderId" "" = .ok id ∧ id ≠ ""
  | .gateio => ∃ id, j.valueString "id" "" = .ok id ∧ id ≠ ""

/-- The call returns, with REJECTED or with the status of an order that the body
acknowledges. -/
def Venue.Reported (P : Platform) (resp : HttpResponse) (venue : Venue)
    (placed : Except String OrderResult) : Prop :=
  ∃ result, placed = .ok result ∧
    (result.status = .rejected ∨
      result.status.accepted = true ∧ ∃ j, P.parseJson resp.body = .ok j ∧ venue.Acknowledges j)

/-! ### MEXC and Gate.io -/

/-- A status that counts as accepted, without an id. -/
def UnnamedStatus (idKey : String) (status : String → Option OrderStatus) (j : Json) : Prop :=
  j.valueString idKey "" = .ok "" ∧
    ∃ text st, j.valueString "status" "" = .ok text ∧ status text = some st

section ByStatus
variable {idKey errorKey : String} {status : String → Option OrderStatus}

theorem parseByStatus_accepted {j : Json} {id text : String} {st : OrderStatus}
    (hid : j.valueString idKey "" = .ok id) (htext : j.valueString "status" "" = .ok text)
    (hst : status text = some st) :
    parseByStatus idKey errorKey status (.ok j) = { exchangeOrderId := id, status := st } := by
  simp only [parseByStatus, hid, htext, hst, bind, Except.bind, pure, Except.pure]
  rfl

theorem parseByStatus_status (parsed : Except String Json) :
    (parseByStatus idKey errorKey status parsed).status = .rejected ∨
      ∃ j id text st, parsed = .ok j ∧ j.valueString idKey "" = .ok id ∧
        j.valueString "status" "" = .ok text ∧ status text = some st := by
  cases parsed with
  | error e => exact .inl rfl
  | ok j =>
    cases hid : j.valueString idKey "" with
    | error e =>
      refine .inl ?_
      simp only [parseByStatus, hid, bind, Except.bind]
      rfl
    | ok id =>
      cases htext : j.valueString "status" "" with
      | error e =>
        refine .inl ?_
        simp only [parseByStatus, hid, htext, bind, Except.bind, pure, Except.pure]
        rfl
      | ok text =>
        cases hst : status text with
        | none =>
          refine .inl ?_
          simp only [parseByStatus, hid, htext, hst, bind, Except.bind, pure, Except.pure]
          cases j.valueString errorKey "Unknown error" <;> rfl
        | some st => exact .inr ⟨j, id, text, st, rfl, hid, htext, hst⟩

theorem parseByStatus_reported_iff (hlive : ∀ text st, status text = some st → st.accepted = true)
    (parsed : Except String Json) :
    ((parseByStatus idKey errorKey status parsed).status = .rejected ∨
        (parseByStatus idKey errorKey status parsed).status.accepted = true ∧
          ∃ j, parsed = .ok j ∧ ∃ id, j.valueString idKey "" = .ok id ∧ id ≠ "") ↔
      ∀ j, parsed = .ok j → ¬ UnnamedStatus idKey status j := by
  constructor
  · rintro hreported j rfl ⟨hid, text, st, htext, hst⟩
    rw [parseByStatus_accepted hid htext hst] at hreported
    have haccepted := hlive text st hst
    rcases hreported with hrejected | ⟨-, j', hj', id, hid', hne⟩
    · rw [show st = .rejected from hrejected] at haccepted
      cases haccepted
    · cases hj'
      rw [hid] at hid'
      cases hid'
      exact hne rfl
  · intro hnamed
    rcases @parseByStatus_status idKey errorKey status parsed with
      hrejected | ⟨j, id, text, st, rfl, hid, htext, hst⟩
    · exact .inl hrejected
    · refine .inr ⟨?_, j, rfl, id, hid, ?_⟩
      · rw [parseByStatus_accepted hid htext hst]
        exact hlive text st hst
      · rintro rfl
        exact hnamed j rfl ⟨hid, text, st, htext, hst⟩

end ByStatus

theorem Mexc.placedStatus_accepted (text : String) (st : OrderStatus)
    (h : Mexc.placedStatus text = some st) : st.accepted = true := by
  unfold Mexc.placedStatus at h
  split at h
  · cases h
    rfl
  · split at h
    · cases h
      rfl
    · split at h
      · cases h
        rfl
      · cases h

theorem Gateio.placedStatus_accepted (text : String) (st : OrderStatus)
    (h : Gateio.placedStatus text = some st) : st.accepted = true := by
  unfold Gateio.placedStatus at h
  split at h
  · cases h
    rfl
  · split at h
    · cases h
      rfl
    · cases h

/-! ### OKX -/

/-- `data` has a first entry that is accepted without an id. -/
def Okx.UnnamedEntry (data : Json) : Prop :=
  ∃ d, data.first = .ok d ∧ d.valueString "ordId" "" = .ok "" ∧ d.valueString "sCode" "1" = .ok "0"

theorem Okx.parsePlaced_pending {j : Json}
    (h : ∀ data, j.member? "data" = some data → data.empty = true) :
    (Okx.parsePlaced (.ok j)).status = .pending := by
  cases hdata : j.member? "data" with
  | none => simp only [Okx.parsePlaced, hdata]
  | some data => simp only [Okx.parsePlaced, hdata, h data hdata, if_true]

theorem Okx.unnamedEntry_iff {data d : Json} (hfirst : data.first = .ok d) :
    Okx.UnnamedEntry data ↔
      d.valueString "ordId" "" = .ok "" ∧ d.valueString "sCode" "1" = .ok "0" := by
  constructor
  · rintro ⟨d', hd', hnamed⟩
    rw [hfirst] at hd'
    cases hd'
    exact hnamed
  · exact fun hnamed => ⟨d, hfirst, hnamed⟩

theorem Okx.parsePlaced_status {j data : Json} (hdata : j.member? "data" = some data)
    (hne : data.empty = false) :
    ((Okx.parsePlaced (.ok j)).status = .opened ∧
        ∃ d id, data.first = .ok d ∧ d.valueString "ordId" "" = .ok id ∧
          d.valueString "sCode" "1" = .ok "0") ∨
      (Okx.parsePlaced (.ok j)).status = .rejected ∧ ¬ Okx.UnnamedEntry data := by
  simp only [Okx.parsePlaced, hdata, hne, Bool.false_eq_true, if_false]
  cases hfirst : data.first with
  | error e =>
    refine .inr ⟨rfl, ?_⟩
    rintro ⟨d, hd, -⟩
    rw [hfirst] at hd
    cases hd
  | ok d =>
    rw [Okx.unnamedEntry_iff hfirst]
    cases hid : d.valueString "ordId" "" with
    | error e =>
      simp only [hid, bind, Except.bind]
      exact .inr ⟨rfl, nofun⟩
    | ok id =>
      simp only [hid, bind, Except.bind, pure, Except.pure]
      cases hcode : d.valueString "sCode" "1" with
      | error e => exact .inr ⟨rfl, nofun⟩
      | ok code =>
        by_cases hzero : code = "0"
        · subst hzero
          exact .inl ⟨rfl, d, id, rfl, hid, hcode⟩
        · simp only [if_neg hzero]
          refine .inr ⟨?_, fun hunnamed => hzero (Except.ok.inj hunnamed.2)⟩
          cases d.valueString "sMsg" "Unknown error" <;> rfl

theorem Okx.parsePlaced_reported_iff (parsed : Except String Json) :
    ((Okx.parsePlaced parsed).status = .rejected ∨
        (Okx.parsePlaced parsed).status.accepted = true ∧
          ∃ j, parsed = .ok j ∧ Venue.okx.Acknowledges j) ↔
      ∀ j, parsed = .ok j → ∃ data, j.member? "data" = some data ∧ data.empty = false ∧
        ¬ Okx.UnnamedEntry data := by
  cases parsed with
  | error e =>
    constructor
    · intro _ j hj
      cases hj
    · exact fun _ => .inl rfl
  | ok j =>
    by_cases hentry : ∃ data, j.member? "data" = some data ∧ data.empty = false
    · obtain ⟨data, hdata, hne⟩ := hentry
      have hiff : (∀ j', Except.ok j = (.ok j' : Except String Json) → ∃ data,
          j'.member? "data" = some data ∧ data.empty = false ∧ ¬ Okx.UnnamedEntry data) ↔
          ¬ Okx.UnnamedEntry data := by
        constructor
        · intro h
          obtain ⟨data', hdata', -, hnamed⟩ := h j rfl
          rw [hdata] at hdata'
          cases hdata'
          exact hnamed
        · rintro hnamed j' hj'
          cases hj'
          exact ⟨data, hdata, hne, hnamed⟩
      rw [hiff]
      rcases Okx.parsePlaced_status hdata hne with
        ⟨hopened, d, id, hfirst, hid, hcode⟩ | ⟨hrejected, hnamed⟩
      · rw [hopened, Okx.unnamedEntry_iff hfirst]
        constructor
        · rintro (h | ⟨-, j', hj', data', d', id', hdata', hfirst', hid', hne'⟩) ⟨hempty, -⟩
          · cases h
          · cases hj'
            rw [hdata] at hdata'
            cases hdata'
            rw [hfirst] at hfirst'
            cases hfirst'
            rw [hempty] at hid'
            cases hid'
            exact hne' rfl
        · intro hnamed
          refine .inr ⟨rfl, j, rfl, data, d, id, hdata, hfirst, hid, ?_⟩
          rintro rfl
          exact hnamed ⟨hid, hcode⟩
      · exact ⟨fun _ => hnamed, fun _ => .inl hrejected⟩
    · have hpending : (Okx.parsePlaced (.ok j)).status = .pending := by
        refine Okx.parsePlaced_pending fun data hdata => ?_
        by_contra hne
        exact hentry ⟨data, hdata, Bool.eq_false_iff.mpr hne⟩
      rw [hpending]
      constructor
      · rintro (h | ⟨h, -⟩)
        · cases h
        · cases h
      · intro h
        obtain ⟨data, hdata, hne, -⟩ := h j rfl
        exact absurd ⟨data, hdata, hne⟩ hentry

/-! ### Bybit -/

/-- Return code 0 with a result that has no order id. -/
def Bybit.UnnamedResult (j : Json) : Prop :=
  ∃ result, j.member? "result" = some result ∧ j.valueInt "retCode" (-1) = .ok 0 ∧
    result.valueString "orderId" "" = .ok ""

theorem Bybit.parsePlaced_status (parsed : Except String Json) :
    (Bybit.parsePlaced parsed).status = .rejected ∧
        (∀ j, parsed = .ok j → ¬ Bybit.UnnamedResult j) ∨
      (Bybit.parsePlaced parsed).status = .opened ∧ ∃ j result id, parsed = .ok j ∧
        j.member? "result" = some result ∧ j.valueInt "retCode" (-1) = .ok 0 ∧
        result.valueString "orderId" "" = .ok id := by
  cases parsed with
  | error e =>
    refine .inl ⟨rfl, ?_⟩
    intro j hj
    cases hj
  | ok j =>
    -- what is read of the two members decides
    have hunnamed : (∀ result, j.member? "result" = some result →
        j.valueInt "retCode" (-1) = .ok 0 → result.valueString "orderId" "" ≠ .ok "") →
        ∀ j', Except.ok j = (.ok j' : Except String Json) → ¬ Bybit.UnnamedResult j' := by
      rintro h j' hj' ⟨result, hresult, hcode, hid⟩
      cases hj'
      exact h result hresult hcode hid
    cases hcode : j.valueInt "retCode" (-1) with
    | error e =>
      refine .inl ⟨?_, hunnamed fun _ _ h => by rw [hcode] at h; cases h⟩
      simp only [Bybit.parsePlaced, hcode, bind, Except.bind]
      rfl
    | ok code =>
      cases hresult : j.member? "result" with
      | none =>
        refine .inl ⟨?_, hunnamed fun _ h => by rw [hresult] at h; cases h⟩
        simp only [Bybit.parsePlaced, hcode, hresult, bind, Except.bind, pure, Except.pure]
        cases j.valueString "retMsg" "Unknown error" <;> rfl
      | some result =>
        by_cases hzero : code = 0
        · subst hzero
          cases hid : result.valueString "orderId" "" with
          | error e =>
            refine .inl ⟨?_, hunnamed fun result' h _ heq => ?_⟩
            · simp only [Bybit.parsePlaced, hcode, hresult, hid, bind, Except.bind, pure, Except.pure,
                if_true]
              rfl
            · rw [hresult] at h
              cases h
              rw [hid] at heq
              cases heq
          | ok id =>
            refine .inr ⟨?_, j, result, id, rfl, hresult, hcode, hid⟩
            simp only [Bybit.parsePlaced, hcode, hresult, hid, bind, Except.bind, pure, Except.pure,
              if_true]
        · refine .inl ⟨?_, hunnamed fun _ _ h => ?_⟩
          · simp only [Bybit.parsePlaced, hcode, hresult, bind, Except.bind, pure, Except.pure,
              if_neg hzero]
            cases j.valueString "retMsg" "Unknown error" <;> rfl
          · rw [hcode] at h
            cases h
            exact absurd rfl hzero

theorem Bybit.parsePlaced_reported_iff (parsed : Except String Json) :
    ((Bybit.parsePlaced parsed).status = .rejected ∨
        (Bybit.parsePlaced parsed).status.accepted = true ∧
          ∃ j, parsed = .ok j ∧ Venue.bybit.Acknowledges j) ↔
      ∀ j, parsed = .ok j → ¬ Bybit.UnnamedResult j := by
  rcases Bybit.parsePlaced_status parsed with
    ⟨hrejected, hnamed⟩ | ⟨hopened, j, result, id, rfl, hresult, hcode, hid⟩
  · exact ⟨fun _ => hnamed, fun _ => .inl hrejected⟩
  · rw [hopened]
    constructor
    · rintro (h | ⟨-, j', hj', result', id', hresult', hid', hne⟩) j'' hj'' ⟨found, hfound, -, hempty⟩
      · cases h
      · cases hj'
        cases hj''
        rw [hresult'] at hfound
        cases hfound
        rw [hid'] at hempty
        cases hempty
        exact hne rfl
    · intro hnamed
      refine .inr ⟨rfl, j, rfl, result, id, hresult, hid, ?_⟩
      rintro rfl
      exact hnamed j rfl ⟨result, hresult, hcode, hid⟩

/-! ### Binance -/

/-- Every field that `parse_order_response` reads has the type it asks for. -/
structure Binance.Decodable (j : Json) (statusStr : String) : Prop where
  orderId : ∃ n, j.valueInt64 "orderId" 0 = .ok n
  status : j.valueString "status" "" = .ok statusStr
  executedQty : ∃ text q, j.valueString "executedQty" "0" = .ok text ∧ stod text = .ok q
  cumQuote : ∃ text q, j.valueString "cummulativeQuoteQty" "0" = .ok text ∧ stod text = .ok q
  fills : ∀ fills, j.member? "fills" = some fills →
    ∃ fee, Binance.totalCommission fills.elements 0 = .ok fee

theorem Binance.parseOrderResponse_ok {j : Json} {statusStr : String}
    (h : Binance.Decodable j statusStr) :
    ∃ result, Binance.parseOrderResponse j = .ok result ∧
      result.status = Binance.orderStatus statusStr := by
  obtain ⟨n, hn⟩ := h.orderId
  obtain ⟨text, q, htext, hq⟩ := h.executedQty
  obtain ⟨text', q', htext', hq'⟩ := h.cumQuote
  cases hfills : j.member? "fills" with
  | none =>
    simp only [Binance.parseOrderResponse, hn, h.status, htext, hq, htext', hq', hfills, bind,
      Except.bind, pure, Except.pure]
    exact ⟨_, rfl, rfl⟩
  | some fills =>
    obtain ⟨fee, hfee⟩ := h.fills fills hfills
    simp only [Binance.parseOrderResponse, hn, h.status, htext, hq, htext', hq', hfills, hfee, bind,
      Except.bind, pure, Except.pure]
    exact ⟨_, rfl, rfl⟩

theorem first_read {β γ : Type} {read : Except String β} {next : β → Except String γ} {decoded : γ}
    (hdecoded : read >>= next = .ok decoded) : ∃ field, read = .ok field ∧ next field = .ok decoded :=
  match read, hdecoded with
  | .ok field, hnext => ⟨field, rfl, hnext⟩

theorem Binance.decodable_of_ok {j : Json} {result : OrderResult}
    (h : Binance.parseOrderResponse j = .ok result) :
    ∃ statusStr, Binance.Decodable j statusStr ∧ result.status = Binance.orderStatus statusStr := by
  obtain ⟨n, hn, h⟩ := first_read h
  obtain ⟨statusStr, hstatus, h⟩ := first_read h
  obtain ⟨text, htext, h⟩ := first_read h
  obtain ⟨q, hq, h⟩ := first_read h
  obtain ⟨text', htext', h⟩ := first_read h
  obtain ⟨q', hq', h⟩ := first_read h
  cases hfills : j.member? "fills" with
  | none =>
    rw [hfills] at h
    cases h
    refine ⟨statusStr, ⟨⟨n, hn⟩, hstatus, ⟨text, q, htext, hq⟩, ⟨text', q', htext', hq'⟩, ?_⟩, rfl⟩
    intro fills hsome
    rw [hfills] at hsome
    cases hsome
  | some fills =>
    rw [hfills] at h
    obtain ⟨fee, hfee, h⟩ := first_read h
    cases h
    refine ⟨statusStr, ⟨⟨n, hn⟩, hstatus, ⟨text, q, htext, hq⟩, ⟨text', q', htext', hq'⟩, ?_⟩, rfl⟩
    intro fills' hsome
    rw [hfills] at hsome
    cases hsome
    exact ⟨fee, hfee⟩

theorem Binance.orderStatus_rejected_iff (statusStr : String) :
    Binance.orderStatus statusStr = .rejected ↔ statusStr = "REJECTED" ∨ statusStr = "EXPIRED" := by
  unfold Binance.orderStatus
  constructor
  · intro h
    split at h
    · cases h
    · split at h
      · cases h
      · split at h
        · cases h
        · split at h
          · cases h
          · split at h
            next hrejected => exact hrejected
            next => cases h
  · rintro (rfl | rfl) <;> decide

theorem Binance.orderStatus_accepted_iff (statusStr : String) :
    (Binance.orderStatus statusStr).accepted = true ↔
      statusStr = "NEW" ∨ statusStr = "PARTIALLY_FILLED" ∨ statusStr = "FILLED" := by
  unfold Binance.orderStatus
  constructor
  · intro h
    split at h
    next hnew => exact .inl hnew
    next =>
      split at h
      next hpartial => exact .inr (.inl hpartial)
      next =>
        split at h
        next hfilled => exact .inr (.inr hfilled)
        next =>
          split at h
          · cases h
          · split at h
            · cases h
            · cases h
  · rintro (rfl | rfl | rfl) <;> decide

/-- The order is rejected in the body, or accepted with an id. -/
def Binance.Settled (j : Json) : Prop :=
  ∃ statusStr, Binance.Decodable j statusStr ∧
    ((statusStr = "REJECTED" ∨ statusStr = "EXPIRED") ∨
      (statusStr = "NEW" ∨ statusStr = "PARTIALLY_FILLED" ∨ statusStr = "FILLED") ∧
        j.contains "orderId" = true)

theorem Binance.readPlaced_reported_iff (P : Platform) (resp : HttpResponse) :
    Venue.binance.Reported P resp (Binance.readPlaced P resp) ↔
      resp.statusCode ≠ 200 ∨ ∃ j, P.parseJson resp.body = .ok j ∧ Binance.Settled j := by
  by_cases hcode : resp.statusCode ≠ 200
  · refine ⟨fun _ => .inl hcode, fun _ => ?_⟩
    unfold Binance.readPlaced
    rw [if_pos hcode]
    exact ⟨_, rfl, .inl rfl⟩
  · unfold Binance.readPlaced
    rw [if_neg hcode, or_iff_right hcode]
    cases hparse : P.parseJson resp.body with
    | error e =>
      constructor
      · rintro ⟨result, hresult, -⟩
        cases hresult
      · rintro ⟨j, hj, -⟩
        cases hj
    | ok j =>
      constructor
      · rintro ⟨result, hresult, hstatus⟩
        obtain ⟨statusStr, hdecodable, heq⟩ := Binance.decodable_of_ok hresult
        rw [heq, Binance.orderStatus_rejected_iff, Binance.orderStatus_accepted_iff] at hstatus
        refine ⟨j, rfl, statusStr, hdecodable, ?_⟩
        rcases hstatus with hrejected | ⟨haccepted, j', hj', hid⟩
        · exact .inl hrejected
        · rw [hparse] at hj'
          cases hj'
          exact .inr ⟨haccepted, hid⟩
      · rintro ⟨j', hj', statusStr, hdecodable, hstatus⟩
        cases hj'
        obtain ⟨result, hresult, heq⟩ := Binance.parseOrderResponse_ok hdecodable
        refine ⟨result, hresult, ?_⟩
        rw [heq, Binance.orderStatus_rejected_iff, Binance.orderStatus_accepted_iff]
        rcases hstatus with hrejected | ⟨haccepted, hid⟩
        · exact .inl hrejected
        · exact .inr ⟨haccepted, j, hparse, hid⟩

/-! ### All adapters -/

/-- The response leaves no order unnamed and no outcome open. -/
def Venue.Decisive (P : Platform) (resp : HttpResponse) : Venue → Prop
  | .binance => resp.statusCode ≠ 200 ∨ ∃ j, P.parseJson resp.body = .ok j ∧ Binance.Settled j
  | .okx => ∀ j, P.parseJson resp.body = .ok j →
      ∃ data, j.member? "data" = some data ∧ data.empty = false ∧ ¬ Okx.UnnamedEntry data
  | .bybit => ∀ j, P.parseJson resp.body = .ok j → ¬ Bybit.UnnamedResult j
  | .mexc => ∀ j, P.parseJson resp.body = .ok j → ¬ UnnamedStatus "orderId" Mexc.placedStatus j
  | .gateio => ∀ j, P.parseJson resp.body = .ok j → ¬ UnnamedStatus "id" Gateio.placedStatus j

theorem reported_ok_iff {P : Platform} {resp : HttpResponse} {venue : Venue} {result : OrderResult} :
    venue.Reported P resp (.ok result) ↔ result.status = .rejected ∨
      result.status.accepted = true ∧ ∃ j, P.parseJson resp.body = .ok j ∧ venue.Acknowledges j := by
  constructor
  · rintro ⟨result', hresult, h⟩
    cases hresult
    exact h
  · exact fun h => ⟨result, rfl, h⟩

theorem readPlaced_reported_iff (P : Platform) (resp : HttpResponse) (venue : Venue) :
    venue.Reported P resp (venue.readPlaced P resp) ↔ venue.Decisive P resp := by
  cases venue with
  | binance => exact Binance.readPlaced_reported_iff P resp
  | okx => exact reported_ok_iff.trans (Okx.parsePlaced_reported_iff _)
  | bybit => exact reported_ok_iff.trans (Bybit.parsePlaced_reported_iff _)
  | mexc => exact reported_ok_iff.trans (parseByStatus_reported_iff Mexc.placedStatus_accepted _)
  | gateio => exact reported_ok_iff.trans (parseByStatus_reported_iff Gateio.placedStatus_accepted _)

theorem placeLimitOrder_reported_iff (P : Platform) (venue : Venue) (a : Adapter) (clock : Clock)
    (server : Server) (req : OrderRequest) (log : List Delivery) :
    ∃ sends, (venue.placeLimitOrder P a clock server req log).2 = log ++ sends ∧
      (venue.Reported P (receivedResponse sends) (venue.placeLimitOrder P a clock server req log).1 ↔
        venue.Decisive P (receivedResponse sends)) := by
  obtain ⟨sends, hlog, hread⟩ := placeLimitOrder_reads P venue a clock server req log
  rw [hread]
  exact ⟨sends, hlog, readPlaced_reported_iff ..⟩

/-- OKX turns the request down as a whole, so no entry of `data` has a code. -/
def signErrorServer : Server := fun _ _ =>
  (true, .http 401 "\x7b\"code\":\"50113\",\"data\":[],\"msg\":\"Invalid Sign\"\x7d")

def signErrorPlatform : Platform :=
  { plainPlatform with
    parseJson := fun _ => .ok (.object
      [("code", .string "50113"), ("data", .array []), ("msg", .string "Invalid Sign")]) }

theorem placeLimitOrder_left_pending : ¬ ∀ (P : Platform) (venue : Venue) (a : Adapter)
    (clock : Clock) (server : Server) (req : OrderRequest) (log : List Delivery),
    ∃ sends, (venue.placeLimitOrder P a clock server req log).2 = log ++ sends ∧
      venue.Reported P (receivedResponse sends) (venue.placeLimitOrder P a clock server req log).1 := by
  intro h
  obtain ⟨sends, -, result, hresult, hstatus⟩ :=
    h signErrorPlatform .okx plainAdapter (fun _ => 0) signErrorServer plainOrder []
  have hpending : (Venue.okx.placeLimitOrder signErrorPlatform plainAdapter (fun _ => 0)
      signErrorServer plainOrder []).1 = .ok {} := rfl
  rw [hpending] at hresult
  cases hresult
  rcases hstatus with hrejected | ⟨haccepted, -⟩
  · cases hrejected
  · cases haccepted

end CryptoArbBot
