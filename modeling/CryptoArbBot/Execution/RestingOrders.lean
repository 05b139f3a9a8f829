import CryptoArbBot.Execution.ExecuteSpec
import CryptoArbBot.Library.Runs

/-!
# Orders left resting

When no exchange call throws, the events of one `execute` are the two
placements followed by the cleanup. The cleanup cancels a leg whose counterpart
was rejected and asks after a leg that was partially filled; a leg that is
PENDING or OPEN while the other one is not rejected is left alone.
-/

namespace CryptoArbBot

def Market.Answers (m : Market) : Prop := ∀ events request, ∃ r, m.respond events request = .ok r

def Event.report (e : Event) (exch : Exchange) (orderId : String) : Option OrderResult :=
  match e.answer with
  | .error _ => none
  | .ok r =>
    match e.request with
    | .place req => if req.exchange = exch ∧ r.exchangeOrderId = orderId then some r else none
    | .query exch' _ id | .cancel exch' _ id => if exch' = exch ∧ id = orderId then some r else none

def lastReport (events : List Event) (exch : Exchange) (orderId : String) : Option OrderResult :=
  (events.filterMap fun e => e.report exch orderId).getLast?

def CancelSent (events : List Event) (exch : Exchange) (pair orderId : String) : Prop :=
  ∃ e ∈ events, e.request = .cancel exch pair orderId

/-- Every order placed in the events whose last reported status is PENDING, OPEN
or PARTIALLY_FILLED has been sent a cancellation. -/
def NoneResting (events : List Event) : Prop :=
  ∀ e ∈ events, ∀ req r, e.request = .place req → e.answer = .ok r →
    ∀ last, lastReport events req.exchange r.exchangeOrderId = some last →
      last.status.live = true → CancelSent events req.exchange req.pair r.exchangeOrderId

def Side.other : Side → Side
  | .buy => .sell
  | .sell => .buy

/-! ### The events of the cleanup -/

def CancelStage (due : Prop) (exch : Exchange) (pair orderId : String) (new : List Event) : Prop :=
  (due ∧ ∃ c, new = [⟨.cancel exch pair orderId, .ok c⟩]) ∨ (¬ due ∧ new = [])

def WaitStage (due : Prop) (exch : Exchange) (pair orderId : String) (new : List Event) : Prop :=
  (due ∧ ∃ q, (q.status = .filled ∧ new = [⟨.query exch pair orderId, .ok q⟩]) ∨
    (q.status ≠ .filled ∧ ∃ c,
      new = [⟨.query exch pair orderId, .ok q⟩, ⟨.cancel exch pair orderId, .ok c⟩])) ∨
  (¬ due ∧ new = [])

/-- The leg is cancelled because the other one was rejected. -/
def CancelDue (results : DualOrderResult) (side : Side) : Prop :=
  (results.leg side.other).status = .rejected ∧ (results.leg side).status ≠ .rejected

def WaitDue (results : DualOrderResult) (side : Side) : Prop :=
  (results.leg side).status = .partiallyFilled

structure CleanupEvents (opp : ArbitrageOpportunity) (results : DualOrderResult)
    (cancels waits : Side → List Event) : Prop where
  cancel : ∀ side, CancelStage (CancelDue results side) (opp.exchangeOf side) opp.pair
    (results.leg side).exchangeOrderId (cancels side)
  wait : ∀ side, WaitStage (WaitDue results side) (opp.exchangeOf side) opp.pair
    (results.leg side).exchangeOrderId (waits side)

def cleanupList (cancels waits : Side → List Event) : List Event :=
  cancels .sell ++ cancels .buy ++ waits .buy ++ waits .sell

theorem mem_cleanupList {cancels waits : Side → List Event} {e : Event} :
    e ∈ cleanupList cancels waits ↔ ∃ side, e ∈ cancels side ∨ e ∈ waits side := by
  simp only [cleanupList, List.mem_append]
  constructor
  · intro h
    rcases h with ((h | h) | h) | h
    · exact ⟨.sell, .inl h⟩
    · exact ⟨.buy, .inl h⟩
    · exact ⟨.buy, .inr h⟩
    · exact ⟨.sell, .inr h⟩
  · intro h
    obtain ⟨side, h⟩ := h
    cases side with
    | buy => rcases h with h | h <;> simp [h]
    | sell => rcases h with h | h <;> simp [h]

section Cleanup
variable {m : Market} (hm : m.Answers)
include hm

theorem cancelOrder_answers (exch : Exchange) (pair orderId : String) (events : List Event) :
    ∃ c, m.cancelOrder exch pair orderId events =
      (.ok (), events ++ [⟨.cancel exch pair orderId, .ok c⟩]) := by
  obtain ⟨c, hc⟩ := hm events (.cancel exch pair orderId)
  exact ⟨c, by simp only [Market.cancelOrder, Market.call, hc]; rfl⟩

theorem cancelStage_answers (due : Prop) [Decidable due] (exch : Exchange) (pair orderId : String)
    (events : List Event) :
    ∃ new, (if due then m.cancelOrder exch pair orderId events else (.ok (), events)) =
      (.ok (), events ++ new) ∧ CancelStage due exch pair orderId new := by
  by_cases h : due
  · obtain ⟨c, hc⟩ := cancelOrder_answers hm exch pair orderId events
    exact ⟨_, by rw [if_pos h, hc], .inl ⟨h, c, rfl⟩⟩
  · exact ⟨[], by rw [if_neg h, List.append_nil], .inr ⟨h, rfl⟩⟩

theorem waitStage_answers (due : Prop) [Decidable due] (exch : Exchange) (pair orderId : String)
    (events : List Event) :
    ∃ new, (if due then m.waitAndCancel exch pair orderId events else (.ok (), events)) =
      (.ok (), events ++ new) ∧ WaitStage due exch pair orderId new := by
  by_cases h : due
  · obtain ⟨q, hq⟩ := hm events (.query exch pair orderId)
    simp only [if_pos h, Market.waitAndCancel, Market.call, hq]
    by_cases hfilled : q.status = .filled
    · exact ⟨_, by simp [hfilled], .inl ⟨h, q, .inl ⟨hfilled, rfl⟩⟩⟩
    · obtain ⟨c, hc⟩ := cancelOrder_answers hm exch pair orderId
        (events ++ [⟨.query exch pair orderId, .ok q⟩])
      refine ⟨_, ?_, .inl ⟨h, q, .inr ⟨hfilled, c, rfl⟩⟩⟩
      simp [hfilled, hc, List.append_assoc]
  · exact ⟨[], by rw [if_neg h, List.append_nil], .inr ⟨h, rfl⟩⟩

theorem handlePartialFill_answers (opp : ArbitrageOpportunity) (results : DualOrderResult)
    (events : List Event) :
    ∃ cancels waits, m.handlePartialFill opp results events =
      (.ok (), events ++ cleanupList cancels waits) ∧ CleanupEvents opp results cancels waits := by
  obtain ⟨c1, h1, hc1⟩ := cancelStage_answers hm
    (results.buy.status = .rejected ∧ results.sell.status ≠ .rejected) opp.sellExchange opp.pair
    results.sell.exchangeOrderId events
  obtain ⟨c2, h2, hc2⟩ := cancelStage_answers hm
    (results.sell.status = .rejected ∧ results.buy.status ≠ .rejected) opp.buyExchange opp.pair
    results.buy.exchangeOrderId (events ++ c1)
  obtain ⟨w1, h3, hw1⟩ := waitStage_answers hm (results.buy.status = .partiallyFilled)
    opp.buyExchange opp.pair results.buy.exchangeOrderId (events ++ c1 ++ c2)
  obtain ⟨w2, h4, hw2⟩ := waitStage_answers hm (results.sell.status = .partiallyFilled)
    opp.sellExchange opp.pair results.sell.exchangeOrderId (events ++ c1 ++ c2 ++ w1)
  refine ⟨fun side => match side with | .buy => c2 | .sell => c1,
    fun side => match side with | .buy => w1 | .sell => w2, ?_, ?_, ?_⟩
  · simp only [Market.handlePartialFill, andThen, h1, h2, h3, h4]
    simp only [cleanupList, List.append_assoc]
  · exact forall_side.mpr ⟨hc2, hc1⟩
  · exact forall_side.mpr ⟨hw1, hw2⟩

theorem cleanUp_answers (opp : ArbitrageOpportunity) (results : DualOrderResult)
    (events : List Event) :
    ∃ cancels waits, m.cleanUp opp results events =
      (.ok (), events ++ cleanupList cancels waits) ∧ CleanupEvents opp results cancels waits := by
  by_cases hboth : results.buy.status = .filled ∧ results.sell.status = .filled
  · refine ⟨fun _ => [], fun _ => [], ?_, ?_, ?_⟩
    · simp [Market.cleanUp, hboth, cleanupList]
    · intro side
      refine .inr ⟨fun hdue => ?_, rfl⟩
      cases side with
      | buy => simp [CancelDue, DualOrderResult.leg, Side.other, hboth] at hdue
      | sell => simp [CancelDue, DualOrderResult.leg, Side.other, hboth] at hdue
    · intro side
      refine .inr ⟨fun hdue => ?_, rfl⟩
      cases side with
      | buy => simp [WaitDue, DualOrderResult.leg, hboth] at hdue
      | sell => simp [WaitDue, DualOrderResult.leg, hboth] at hdue
  · have hnot : ¬ results.buy.status = .filled ∨ ¬ results.sell.status = .filled := by
      rw [← not_and_or]
      exact hboth
    simp only [Market.cleanUp, if_pos hnot]
    exact handlePartialFill_answers hm opp results events

end Cleanup

/-! ### What the cleanup does for an order -/

section Stages
variable {due : Prop} {exch exch' : Exchange} {pair orderId orderId' : String} {new : List Event}
  {e : Event}

theorem CancelStage.mem (h : CancelStage due exch pair orderId new) (he : e ∈ new) :
    due ∧ e.request = .cancel exch pair orderId := by
  rcases h with ⟨hdue, c, rfl⟩ | ⟨_, rfl⟩
  · rw [List.mem_singleton.mp he]
    exact ⟨hdue, rfl⟩
  · simp at he

theorem WaitStage.mem (h : WaitStage due exch pair orderId new) (he : e ∈ new) :
    due ∧ (e.request = .cancel exch pair orderId ∨
      e.request = .query exch pair orderId ∧
        ∀ q, e.answer = .ok q → q.status ≠ .filled → CancelSent new exch pair orderId) := by
  rcases h with ⟨hdue, q, ⟨hfilled, rfl⟩ | ⟨_, c, rfl⟩⟩ | ⟨_, rfl⟩
  · rw [List.mem_singleton.mp he]
    refine ⟨hdue, .inr ⟨rfl, fun q' hq' hne => ?_⟩⟩
    cases hq'
    exact (hne hfilled).elim
  · refine ⟨hdue, ?_⟩
    simp only [List.mem_cons, List.not_mem_nil, or_false] at he
    rcases he with rfl | rfl
    · exact .inr ⟨rfl, fun _ _ _ => ⟨⟨.cancel exch pair orderId, .ok c⟩, by simp, rfl⟩⟩
    · exact .inl rfl
  · simp at he

theorem CancelStage.sent (h : CancelStage due exch pair orderId new) (hdue : due) :
    CancelSent new exch pair orderId := by
  rcases h with ⟨_, c, rfl⟩ | ⟨hnot, _⟩
  · exact ⟨_, List.mem_singleton_self _, rfl⟩
  · exact (hnot hdue).elim

theorem WaitStage.report (h : WaitStage due exch pair orderId new) (hdue : due) :
    ∃ e ∈ new, ∃ r, e.report exch orderId = some r := by
  rcases h with ⟨_, q, ⟨_, rfl⟩ | ⟨_, c, rfl⟩⟩ | ⟨hnot, _⟩
  · exact ⟨⟨.query exch pair orderId, .ok q⟩, by simp, q, by simp [Event.report]⟩
  · exact ⟨⟨.query exch pair orderId, .ok q⟩, by simp, q, by simp [Event.report]⟩
  · exact (hnot hdue).elim

/-- What is reported by a cancel or a query is about its own order, and is the answer. -/
theorem report_eq_some {r : OrderResult}
    (hreq : e.request = .cancel exch pair orderId ∨ e.request = .query exch pair orderId)
    (hr : e.report exch' orderId' = some r) :
    exch = exch' ∧ orderId = orderId' ∧ e.answer = .ok r := by
  have hsome : (if exch = exch' ∧ orderId = orderId' then e.answer.toOption else none) = some r := by
    rw [← hr, Event.report]
    cases e.answer with
    | error text => simp [Except.toOption]
    | ok r' => rcases hreq with hreq | hreq <;> simp [hreq, Except.toOption]
  split at hsome
  next hsame =>
    refine ⟨hsame.1, hsame.2, ?_⟩
    cases hans : e.answer with
    | error text =>
      rw [hans] at hsome
      cases hsome
    | ok r' =>
      rw [hans] at hsome
      rw [Option.some.inj hsome]
  next => cases hsome

end Stages

/-! ### One call -/

/-- A leg that the exchange has accepted and not begun to fill. -/
def OrderStatus.untouched (status : OrderStatus) : Prop := status = .pending ∨ status = .opened

/-- A leg that is PENDING or OPEN has a rejected counterpart. -/
def LegsSettle (results : DualOrderResult) : Prop :=
  ∀ side, (results.leg side).status.untouched → (results.leg side.other).status = .rejected

/-- The two orders differ in exchange or order id. -/
def Distinguished (opp : ArbitrageOpportunity) (results : DualOrderResult) : Prop :=
  opp.buyExchange ≠ opp.sellExchange ∨ results.buy.exchangeOrderId ≠ results.sell.exchangeOrderId

def orderRequest (opp : ArbitrageOpportunity) (cid : Side → String) : Side → OrderRequest
  | .buy => buyRequest opp (cid .buy)
  | .sell => sellRequest opp (cid .sell)

def placement (opp : ArbitrageOpportunity) (cid : Side → String) (results : DualOrderResult)
    (side : Side) : Event :=
  ⟨.place (orderRequest opp cid side), .ok (results.leg side)⟩

def Placements (opp : ArbitrageOpportunity) (cid : Side → String) (results : DualOrderResult)
    (ps : List Event) : Prop :=
  ∃ side, ps = [placement opp cid results side, placement opp cid results side.other]

theorem Side.eq_or_other (side side' : Side) : side' = side ∨ side' = side.other := by
  cases side <;> cases side' <;> decide

theorem Placements.mem_iff {opp : ArbitrageOpportunity} {cid : Side → String}
    {results : DualOrderResult} {ps : List Event} (h : Placements opp cid results ps) {e : Event} :
    e ∈ ps ↔ ∃ side, e = placement opp cid results side := by
  obtain ⟨side, rfl⟩ := h
  simp only [List.mem_cons, List.not_mem_nil, or_false]
  constructor
  · intro h
    rcases h with h | h
    · exact ⟨_, h⟩
    · exact ⟨_, h⟩
  · intro h
    obtain ⟨side', rfl⟩ := h
    rcases side.eq_or_other side' with rfl | rfl
    · exact .inl rfl
    · exact .inr rfl

theorem report_placement (opp : ArbitrageOpportunity) (cid : Side → String)
    (results : DualOrderResult) (side : Side) (exch : Exchange) (orderId : String) :
    (placement opp cid results side).report exch orderId =
      if opp.exchangeOf side = exch ∧ (results.leg side).exchangeOrderId = orderId then
        some (results.leg side)
      else none := by
  cases side <;> rfl

section Call
variable {opp : ArbitrageOpportunity} {cid : Side → String} {results : DualOrderResult}
  {ps : List Event} {cancels waits : Side → List Event}

theorem CleanupEvents.mem (h : CleanupEvents opp results cancels waits) {e : Event}
    (he : e ∈ cleanupList cancels waits) :
    ∃ side, (CancelDue results side ∨ WaitDue results side) ∧
      (e.request = .cancel (opp.exchangeOf side) opp.pair (results.leg side).exchangeOrderId ∨
        e.request = .query (opp.exchangeOf side) opp.pair (results.leg side).exchangeOrderId ∧
          ∀ q, e.answer = .ok q → q.status ≠ .filled →
            CancelSent (cleanupList cancels waits) (opp.exchangeOf side) opp.pair
              (results.leg side).exchangeOrderId) := by
  obtain ⟨side, he | he⟩ := mem_cleanupList.mp he
  · obtain ⟨hdue, hreq⟩ := (h.cancel side).mem he
    exact ⟨side, .inl hdue, .inl hreq⟩
  · obtain ⟨hdue, hreq | ⟨hreq, hsent⟩⟩ := (h.wait side).mem he
    · exact ⟨side, .inr hdue, .inl hreq⟩
    · refine ⟨side, .inr hdue, .inr ⟨hreq, fun q hq hne => ?_⟩⟩
      obtain ⟨e', he', hreq'⟩ := hsent q hq hne
      exact ⟨e', mem_cleanupList.mpr ⟨side, .inr he'⟩, hreq'⟩

theorem getLast?_filterMap_mem {events : List Event} {exch : Exchange} {orderId : String}
    {last : OrderResult} (h : lastReport events exch orderId = some last) :
    ∃ e ∈ events, e.report exch orderId = some last :=
  List.mem_filterMap.mp (List.mem_of_getLast? h)

theorem lastReport_append {earlier later : List Event} {exch : Exchange} {orderId : String}
    {last : OrderResult} (h : lastReport (earlier ++ later) exch orderId = some last) :
    (later.filterMap (fun e => e.report exch orderId) = [] ∧
        ∃ e ∈ earlier, e.report exch orderId = some last) ∨
      ∃ e ∈ later, e.report exch orderId = some last := by
  by_cases hnew : later.filterMap (fun e => e.report exch orderId) = []
  · rw [lastReport, List.filterMap_append, hnew, List.append_nil] at h
    exact .inl ⟨hnew, getLast?_filterMap_mem h⟩
  · rw [lastReport, List.filterMap_append, List.getLast?_append_of_ne_nil _ hnew] at h
    exact .inr (getLast?_filterMap_mem h)

theorem CleanupEvents.cancelled (h : CleanupEvents opp results cancels waits) (ps : List Event)
    {side : Side} (hdue : CancelDue results side) :
    CancelSent (ps ++ cleanupList cancels waits) (opp.exchangeOf side) opp.pair
      (results.leg side).exchangeOrderId := by
  obtain ⟨e, he, hreq⟩ := (h.cancel side).sent hdue
  exact ⟨e, List.mem_append_right _ (mem_cleanupList.mpr ⟨side, .inl he⟩), hreq⟩

theorem CleanupEvents.not_waitDue (h : CleanupEvents opp results cancels waits) {side : Side}
    (hnew : (cleanupList cancels waits).filterMap (fun e =>
      e.report (opp.exchangeOf side) (results.leg side).exchangeOrderId) = []) :
    ¬ WaitDue results side := by
  intro hdue
  obtain ⟨e, he, q, hq⟩ := (h.wait side).report hdue
  have hmem : q ∈ (cleanupList cancels waits).filterMap fun e =>
      e.report (opp.exchangeOf side) (results.leg side).exchangeOrderId :=
    List.mem_filterMap.mpr ⟨e, mem_cleanupList.mpr ⟨side, .inr he⟩, hq⟩
  rw [hnew] at hmem
  cases hmem

theorem noneResting_of_legsSettle (hps : Placements opp cid results ps)
    (hclean : CleanupEvents opp results cancels waits) (hsettle : LegsSettle results) :
    NoneResting (ps ++ cleanupList cancels waits) := by
  intro e he req r hreq hans last hlast hlive
  have hplaced : ∃ side, e = placement opp cid results side := by
    rcases List.mem_append.mp he with he | he
    · exact hps.mem_iff.mp he
    · obtain ⟨side, _, hreq' | ⟨hreq', _⟩⟩ := hclean.mem he
      · rw [hreq] at hreq'
        cases hreq'
      · rw [hreq] at hreq'
        cases hreq'
  have hpair : req.pair = opp.pair := by
    obtain ⟨side, rfl⟩ := hplaced
    cases hreq
    cases side <;> rfl
  rw [hpair]
  rcases lastReport_append hlast with ⟨hnew, e', he', hreport⟩ | ⟨e', he', hreport⟩
  · -- the last report is a placement's answer
    obtain ⟨side, rfl⟩ := hps.mem_iff.mp he'
    rw [report_placement] at hreport
    split at hreport
    next hid =>
      obtain rfl : results.leg side = last := Option.some.inj hreport
      rw [← hid.1, ← hid.2] at hnew ⊢
      refine hclean.cancelled ps ⟨hsettle side ?_, fun hrej => ?_⟩
      · cases hstatus : (results.leg side).status with
        | pending => exact .inl rfl
        | opened => exact .inr rfl
        | partiallyFilled => exact (hclean.not_waitDue hnew hstatus).elim
        | filled => simp [hstatus, OrderStatus.live] at hlive
        | cancelled => simp [hstatus, OrderStatus.live] at hlive
        | rejected => simp [hstatus, OrderStatus.live] at hlive
      · simp [hrej, OrderStatus.live] at hlive
    next => cases hreport
  · -- the last report is an answer of the cleanup
    obtain ⟨side, _, hreq' | ⟨hreq', hsent⟩⟩ := hclean.mem he'
    · obtain ⟨hexch, hid, _⟩ := report_eq_some (.inl hreq') hreport
      exact ⟨e', List.mem_append_right _ he', by rw [hreq', hexch, hid]⟩
    · obtain ⟨hexch, hid, hanswer⟩ := report_eq_some (.inr hreq') hreport
      have hne : last.status ≠ .filled := by
        intro hfilled
        simp [hfilled, OrderStatus.live] at hlive
      obtain ⟨e'', he'', hcancelled⟩ := hsent last hanswer hne
      exact ⟨e'', List.mem_append_right _ he'', by rw [hcancelled, hexch, hid]⟩

theorem Distinguished.other_ne (h : Distinguished opp results) (side : Side) :
    ¬ (opp.exchangeOf side.other = opp.exchangeOf side ∧
      (results.leg side.other).exchangeOrderId = (results.leg side).exchangeOrderId) := by
  rintro ⟨hexch, hid⟩
  cases side with
  | buy => exact h.elim (fun hd => hd hexch.symm) fun hd => hd hid.symm
  | sell => exact h.elim (fun hd => hd hexch) fun hd => hd hid

theorem CleanupEvents.report_eq_nil (h : CleanupEvents opp results cancels waits)
    (hdist : Distinguished opp results) {side : Side}
    (hquiet : ∀ side', CancelDue results side' ∨ WaitDue results side' → side' = side.other) :
    (cleanupList cancels waits).filterMap (fun e =>
      e.report (opp.exchangeOf side) (results.leg side).exchangeOrderId) = [] := by
  refine List.filterMap_eq_nil_iff.mpr fun e he => ?_
  obtain ⟨side', hdue, hreq⟩ := h.mem he
  obtain rfl := hquiet side' hdue
  cases hreport : e.report (opp.exchangeOf side) (results.leg side).exchangeOrderId with
  | none => rfl
  | some r =>
    rcases hreq with hreq | ⟨hreq, _⟩
    · obtain ⟨hexch, hid, _⟩ := report_eq_some (.inl hreq) hreport
      exact (hdist.other_ne side ⟨hexch, hid⟩).elim
    · obtain ⟨hexch, hid, _⟩ := report_eq_some (.inr hreq) hreport
      exact (hdist.other_ne side ⟨hexch, hid⟩).elim

theorem Placements.lastReport_eq (h : Placements opp cid results ps)
    (hdist : Distinguished opp results) {side : Side} {later : List Event}
    (hnew : later.filterMap (fun e =>
      e.report (opp.exchangeOf side) (results.leg side).exchangeOrderId) = []) :
    lastReport (ps ++ later) (opp.exchangeOf side) (results.leg side).exchangeOrderId =
      some (results.leg side) := by
  rw [lastReport, List.filterMap_append, hnew, List.append_nil]
  obtain ⟨first, rfl⟩ := h
  have hself := report_placement opp cid results side (opp.exchangeOf side)
    (results.leg side).exchangeOrderId
  have hcross := report_placement opp cid results side.other (opp.exchangeOf side)
    (results.leg side).exchangeOrderId
  rw [if_pos ⟨rfl, rfl⟩] at hself
  rw [if_neg (hdist.other_ne side)] at hcross
  cases side <;> cases first <;> simp only [Side.other] at hself hcross ⊢ <;>
    simp [hself, hcross]

theorem legsSettle_of_noneResting (hps : Placements opp cid results ps)
    (hclean : CleanupEvents opp results cancels waits) (hdist : Distinguished opp results)
    (h : NoneResting (ps ++ cleanupList cancels waits)) : LegsSettle results := by
  intro side huntouched
  by_contra hother
  -- the cleanup is about the other order only
  have hquiet : ∀ side', CancelDue results side' ∨ WaitDue results side' → side' = side.other := by
    intro side' hdue
    rcases side.eq_or_other side' with rfl | hside
    · rcases hdue with hdue | hdue
      · exact (hother hdue.1).elim
      · rcases huntouched with hstatus | hstatus <;> rw [WaitDue, hstatus] at hdue <;> cases hdue
    · exact hside
  have hlast := hps.lastReport_eq hdist (hclean.report_eq_nil hdist hquiet)
  have hlive : (results.leg side).status.live = true := by
    rcases huntouched with hstatus | hstatus <;> rw [hstatus] <;> rfl
  have hplaced : placement opp cid results side ∈ ps ++ cleanupList cancels waits :=
    List.mem_append_left _ (hps.mem_iff.mpr ⟨side, rfl⟩)
  have hexch : (orderRequest opp cid side).exchange = opp.exchangeOf side := by cases side <;> rfl
  obtain ⟨e, he, hreq⟩ := h _ hplaced (orderRequest opp cid side) (results.leg side) rfl rfl
    (results.leg side) (hexch ▸ hlast) hlive
  rw [hexch] at hreq
  rcases List.mem_append.mp he with he | he
  · obtain ⟨side', rfl⟩ := hps.mem_iff.mp he
    cases hreq
  · obtain ⟨side', hdue, hreq' | ⟨hreq', _⟩⟩ := hclean.mem he
    · obtain rfl := hquiet side' hdue
      rw [hreq, Request.cancel.injEq] at hreq'
      exact hdist.other_ne side ⟨hreq'.1.symm, hreq'.2.2.symm⟩
    · rw [hreq] at hreq'
      cases hreq'

end Call

/-! ### Runs of calls -/

theorem execute_events {env : LiveEnv} (hm : env.market.Answers) {opp : ArbitrageOpportunity}
    (timestampIso : String) (st : LiveState)
    (hvalid : validateOpportunity env.exchanges opp = true) :
    ∃ results events ps cancels waits,
      env.placed opp st = (.ok results.buy, .ok results.sell, events) ∧
      Placements opp (env.cid st) results ps ∧ CleanupEvents opp results cancels waits ∧
      added st.events (execute env opp timestampIso st).2.events =
        ps ++ cleanupList cancels waits := by
  have hplaced : ∃ results ps, env.placed opp st =
      (.ok results.buy, .ok results.sell, st.events ++ ps) ∧ Placements opp (env.cid st) results ps := by
    unfold LiveEnv.placed Market.placeBoth Market.call
    cases hfirst : env.market.sellFirst st.events with
    | true =>
      obtain ⟨sell, hsell⟩ := hm st.events (.place (sellRequest opp (env.cid st .sell)))
      obtain ⟨buy, hbuy⟩ := hm (st.events ++ [⟨.place (sellRequest opp (env.cid st .sell)), .ok sell⟩])
        (.place (buyRequest opp (env.cid st .buy)))
      refine ⟨⟨buy, sell⟩, _, ?_, .sell, rfl⟩
      simp only [if_true, hsell, hbuy, List.append_assoc]
      rfl
    | false =>
      obtain ⟨buy, hbuy⟩ := hm st.events (.place (buyRequest opp (env.cid st .buy)))
      obtain ⟨sell, hsell⟩ := hm (st.events ++ [⟨.place (buyRequest opp (env.cid st .buy)), .ok buy⟩])
        (.place (sellRequest opp (env.cid st .sell)))
      refine ⟨⟨buy, sell⟩, _, ?_, .buy, rfl⟩
      simp only [Bool.false_eq_true, if_false, hbuy, hsell, List.append_assoc]
      rfl
  obtain ⟨results, ps, hplaced, hps⟩ := hplaced
  obtain ⟨cancels, waits, hclean, hevents⟩ := cleanUp_answers hm opp results (st.events ++ ps)
  refine ⟨results, _, ps, cancels, waits, hplaced, hps, hevents, ?_⟩
  rw [execute_settled timestampIso hvalid hplaced hclean]
  simp only [List.append_assoc, added_append]

def executeStep (env : LiveEnv) (st : LiveState) (call : ArbitrageOpportunity × String) : LiveState :=
  (execute env call.1 call.2 st).2

/-- The call leaves none of its orders resting. -/
def CallLeavesNone (env : LiveEnv) (st : LiveState) (call : ArbitrageOpportunity × String) : Prop :=
  NoneResting (added st.events (executeStep env st call).events)

def CallPlaced (property : ArbitrageOpportunity → DualOrderResult → Prop) (env : LiveEnv)
    (st : LiveState) (call : ArbitrageOpportunity × String) : Prop :=
  validateOpportunity env.exchanges call.1 = true →
    ∀ results events, env.placed call.1 st = (.ok results.buy, .ok results.sell, events) →
      property call.1 results

theorem execute_invalid_events {env : LiveEnv} {opp : ArbitrageOpportunity} (timestampIso : String)
    (st : LiveState) (h : validateOpportunity env.exchanges opp = false) :
    added st.events (execute env opp timestampIso st).2.events = [] := by
  rw [execute_invalid timestampIso h]
  exact added_self _

theorem callLeavesNone_iff {env : LiveEnv} (hm : env.market.Answers) (st : LiveState)
    (call : ArbitrageOpportunity × String) :
    (CallPlaced (fun _ => LegsSettle) env st call → CallLeavesNone env st call) ∧
      (CallPlaced Distinguished env st call → CallLeavesNone env st call →
        CallPlaced (fun _ => LegsSettle) env st call) := by
  unfold CallLeavesNone executeStep
  cases hvalid : validateOpportunity env.exchanges call.1 with
  | false =>
    rw [execute_invalid_events call.2 st hvalid]
    constructor
    · intro _ e he
      cases he
    · intro _ _ hv
      rw [hvalid] at hv
      cases hv
  | true =>
    obtain ⟨results, events, ps, cancels, waits, hplaced, hps, hclean, hevents⟩ :=
      execute_events hm call.2 st hvalid
    rw [hevents]
    refine ⟨fun hsettle => noneResting_of_legsSettle hps hclean (hsettle hvalid results events hplaced),
      fun hdist h _ results' events' hplaced' => ?_⟩
    have hresults : results' = results := by
      rw [hplaced, Prod.mk.injEq, Prod.mk.injEq] at hplaced'
      obtain ⟨hbuy, hsell, _⟩ := hplaced'
      cases results
      cases results'
      simp_all
    rw [hresults]
    exact legsSettle_of_noneResting hps hclean (hdist hvalid results events hplaced) h

/-- In every run in which each PENDING or OPEN leg has a rejected counterpart, no
call leaves an order resting; when the two orders of every call differ in
exchange or id, these are the only such runs. -/
theorem execute_run_noneResting (env : LiveEnv) (hm : env.market.Answers) (st : LiveState)
    (calls : List (ArbitrageOpportunity × String)) :
    (Runs.Along (executeStep env) (CallPlaced (fun _ => LegsSettle) env) st calls →
      Runs.Along (executeStep env) (CallLeavesNone env) st calls) ∧
    (Runs.Along (executeStep env) (CallPlaced Distinguished env) st calls →
      Runs.Along (executeStep env) (CallLeavesNone env) st calls →
        Runs.Along (executeStep env) (CallPlaced (fun _ => LegsSettle) env) st calls) :=
  ⟨fun h => h.imp fun st call => (callLeavesNone_iff hm st call).1,
    fun hdist h => (hdist.and h).imp fun st call hc => (callLeavesNone_iff hm st call).2 hc.1 hc.2⟩

def partialEnv : LiveEnv :=
  scriptedEnv (scriptedMarket
    (.ok { exchangeOrderId := "1", status := .partiallyFilled, filledQuantity := 1 / 2 })
    (.ok (filledAt "2" 102))
    (.ok { exchangeOrderId := "1", status := .partiallyFilled, filledQuantity := 3 / 4 })
    (.ok { exchangeOrderId := "1", status := .cancelled }))

def restingEnv : LiveEnv :=
  scriptedEnv (scriptedMarket (.ok (restingOrder "1")) (.ok (restingOrder "2"))
    (.ok (restingOrder "1")) (.ok (restingOrder "1")))

theorem scripted_answers (buy sell query cancel : OrderResult) :
    (scriptedEnv (scriptedMarket (.ok buy) (.ok sell) (.ok query) (.ok cancel))).market.Answers := by
  intro events request
  cases request with
  | place req =>
    by_cases hside : req.side = .buy
    · exact ⟨buy, if_pos hside⟩
    · exact ⟨sell, if_neg hside⟩
  | query exch pair orderId => exact ⟨query, rfl⟩
  | cancel exch pair orderId => exact ⟨cancel, rfl⟩

theorem scripted_callPlaced {property : ArbitrageOpportunity → DualOrderResult → Prop}
    {buy sell : OrderResult} (query cancel : OrderResult)
    (h : ∀ opp, property opp ⟨buy, sell⟩) (st : LiveState) (call : ArbitrageOpportunity × String) :
    CallPlaced property (scriptedEnv (scriptedMarket (.ok buy) (.ok sell) (.ok query) (.ok cancel)))
      st call := by
  intro _ results events hplaced
  obtain ⟨events', hscripted⟩ := scripted_placed (.ok buy) (.ok sell) (.ok query) (.ok cancel)
    call.1 st
  rw [hscripted, Prod.mk.injEq, Prod.mk.injEq, Except.ok.injEq, Except.ok.injEq] at hplaced
  obtain ⟨rfl, rfl, _⟩ := hplaced
  exact h call.1

theorem partialEnv_leavesNone :
    Runs.Along (executeStep partialEnv) (CallLeavesNone partialEnv) emptyState
      [(sampleOpportunity, "2024-01-01T00:00:00Z"), (sampleOpportunity, "2024-01-01T00:00:05Z")] := by
  refine (execute_run_noneResting partialEnv (scripted_answers _ _ _ _) emptyState _).1
    (Runs.along_of_forall (fun st call => scripted_callPlaced _ _ (fun _ side hside => ?_) st call) _ _)
  cases side with
  | buy => rcases hside with hside | hside <;> cases hside
  | sell => rcases hside with hside | hside <;> cases hside

/-- Neither resting order is cancelled. -/
theorem restingEnv_leaves_resting :
    restingEnv.market.Answers ∧
      ¬ Runs.Along (executeStep restingEnv) (CallLeavesNone restingEnv) emptyState
        [(sampleOpportunity, "2024-01-01T00:00:00Z")] := by
  refine ⟨scripted_answers _ _ _ _, fun h => ?_⟩
  have hdist : CallPlaced Distinguished restingEnv emptyState
      (sampleOpportunity, "2024-01-01T00:00:00Z") := by
    intro _ results events _
    exact .inl (by decide)
  have hsettle := (callLeavesNone_iff (scripted_answers _ _ _ _) _ _).2 hdist h.1
  have hrejected := hsettle (sampleOpportunity_valid _) ⟨restingOrder "1", restingOrder "2"⟩ _ rfl
    .buy (.inr rfl)
  cases hrejected

end CryptoArbBot
