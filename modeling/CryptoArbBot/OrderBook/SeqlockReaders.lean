import CryptoArbBot.OrderBook.Publication

/-!
# The lock-free readers of the order book

Each reader call is run against any interleaving of its loads with the writes
of `apply_snapshot` and `apply_delta`, from the constructed book on. Two steps
break the protocol: leaving the loop on an odd counter, which `continue` allows
because it jumps to the loop condition, and copying into a vector of `snapshot`
that an earlier iteration has shrunk. Without such a step every call reports one
published book.
-/

namespace CryptoArbBot
open Seqlock

/-- A reader call with its arguments. A negative depth throws in the first
`resize`, before the loop, so the depth is a natural number; `now` is the clock
after the loop. -/
inductive Reader where
  | bestBid
  | bestAsk
  | midPrice
  | snapshot (depth : ℕ)
  | isStale (threshold : ℤ) (now : TimePoint)

def Reader.Locals : Reader → Type
  | .bestBid | .bestAsk => Option ℚ
  | .midPrice => MidLocals
  | .snapshot _ => SnapshotLocals
  | .isStale _ _ => TimePoint

def Reader.Result : Reader → Type
  | .bestBid | .bestAsk => Option ℚ
  | .midPrice => Except String ℚ
  | .snapshot _ => OrderBookSnapshot
  | .isStale _ _ => Bool

def Reader.call (exchange : Exchange) (pair : String) :
    (r : Reader) → Call TopOfBook r.Locals r.Result
  | .bestBid => CryptoArbBot.bestBid
  | .bestAsk => CryptoArbBot.bestAsk
  | .midPrice => CryptoArbBot.midPrice exchange pair
  | .snapshot depth => snapshotLoop exchange pair (min depth 20)
  | .isStale threshold now => CryptoArbBot.isStale threshold now

def Reader.Reports (exchange : Exchange) (pair : String) (v : BookView) :
    (r : Reader) → r.Result → Prop
  | .bestBid, result => result = v.bids.head?.map (·.price)
  | .bestAsk, result => result = v.asks.head?.map (·.price)
  | .midPrice, result =>
    result = match v.mid with
      | some mid => .ok mid
      | none => .error ("Cannot compute mid price: empty order book for " ++ exchange.toString ++
          ":" ++ pair)
  | .snapshot depth, result =>
    result.exchange = exchange ∧ result.pair = pair ∧ result.bids = v.bids.take depth ∧
      result.asks = v.asks.take depth ∧ result.localTimestamp = v.updated
  | .isStale threshold now, result => result = decide (now - v.updated > threshold * 10 ^ 6)

theorem reports_of_fromView {exchange : Exchange} {pair : String} {r : Reader} {v : BookView}
    {l : r.Locals} (hbids : v.bids.length ≤ 20) (hasks : v.asks.length ≤ 20)
    (h : FromView TopOfBook.view (r.call exchange pair) v l) :
    r.Reports exchange pair v ((r.call exchange pair).finish l) := by
  obtain ⟨l0, h⟩ := h
  cases r with
  | bestBid => exact bestBid_evals h
  | bestAsk => exact bestAsk_evals h
  | midPrice => exact midPrice_evals h
  | snapshot depth =>
    obtain ⟨hb, ha, ht⟩ := snapshotLoop_evals (Nat.min_le_right depth 20) h
    refine ⟨rfl, rfl, hb.trans ?_, ha.trans ?_, ht⟩
    · rw [List.take_eq_take_iff]
      omega
    · rw [List.take_eq_take_iff]
      omega
  | isStale threshold now =>
    have hl : l = v.updated := isStale_evals h
    subst hl
    rfl

/-! ### The run of one call -/

abbrev ReaderSystem (r : Reader) := System TopOfBook OrderBook r.Locals

/-- The call is about to begin; no writer has run since the constructor, whose
state counts as published. -/
def Reader.start (r : Reader) (b : OrderBook) : ReaderSystem r where
  mem := b.top
  count := 0
  owner := b
  pending := []
  history := [b]
  phase := .opening (r.call b.exchange b.pair).init

def Reader.step (std : StdSort PriceLevel) (exchange : Exchange) (pair : String) (r : Reader) :
    ReaderSystem r → Action BookCall → ReaderSystem r :=
  Seqlock.step (fun call b => b.start std call) (r.call exchange pair)

/-- A call that has returned (or thrown) saw an even counter and reports a book
left by a completed writer call; no call has accessed a vector out of range. -/
def Reader.Published (exchange : Exchange) (pair : String) (r : Reader) (s : ReaderSystem r) :
    Prop :=
  match s.phase with
  | .returned opened l => opened % 2 = 0 ∧
      ∃ b ∈ s.history, r.Reports exchange pair b.view ((r.call exchange pair).finish l)
  | .undefined => False
  | .opening _ | .running _ _ | .closing _ _ => True

theorem view_length_le (b : OrderBook) : b.view.bids.length ≤ 20 ∧ b.view.asks.length ≤ 20 :=
  ⟨List.length_take_le .., List.length_take_le ..⟩

theorem published_of_good {exchange : Exchange} {pair : String} {r : Reader} {s : ReaderSystem r}
    (h : Good TopOfBook.view OrderBook.view (r.call exchange pair) s) :
    r.Published exchange pair s := by
  unfold Good at h
  unfold Reader.Published
  cases hphase : s.phase with
  | opening l => trivial
  | running o body => trivial
  | closing o l => trivial
  | returned o l =>
    rw [hphase] at h
    obtain ⟨heven, b, hb, hfrom⟩ := h
    obtain ⟨hbids, hasks⟩ := view_length_le b
    exact ⟨heven, b, hb, reports_of_fromView hbids hasks hfrom⟩
  | undefined =>
    rw [hphase] at h
    exact h

theorem sound_of_published {exchange : Exchange} {pair : String} {r : Reader} {s : ReaderSystem r}
    (h : r.Published exchange pair s) : Sound s := by
  unfold Reader.Published at h
  unfold Sound
  cases hphase : s.phase with
  | opening l => trivial
  | running o body => trivial
  | closing o l => trivial
  | returned o l =>
    rw [hphase] at h
    exact h.1
  | undefined =>
    rw [hphase] at h
    exact h

/-- `snapshot` between two writer calls is what the reader returns when it runs
alone. -/
theorem snapshot_alone (std : StdSort PriceLevel) (b : OrderBook) {depth : ℕ}
    {snap : OrderBookSnapshot} (h : b.snapshot depth = some snap) :
    ∃ n l, (Runs.run ((Reader.snapshot depth).step std b.exchange b.pair)
        ((Reader.snapshot depth).start b) (List.replicate n .read)).phase = .returned 0 l ∧
      ((Reader.snapshot depth).call b.exchange b.pair).finish l = snap := by
  have hdepth : ¬ min (depth : ℤ) 20 < 0 := by omega
  have hlevels : (min (depth : ℤ) 20).toNat = min depth 20 := by omega
  simp only [OrderBook.snapshot, if_neg hdepth, hlevels, Call.alone] at h
  obtain ⟨l, heval, hfinish⟩ := Option.map_eq_some_iff.mp h
  obtain ⟨n, hn⟩ := run_alone (fun call b => OrderBook.start std call b)
    ((Reader.snapshot depth).call b.exchange b.pair) (s := (Reader.snapshot depth).start b)
    rfl rfl heval
  refine ⟨n, l, ?_, hfinish⟩
  unfold Reader.step
  rw [hn]
  rfl

/-- Every book that a call may report is the result of completed writer calls
executed one after another. -/
theorem history_sequential (std : StdSort PriceLevel) (r : Reader) (b : OrderBook)
    (sched : List (Action BookCall)) :
    ∀ p ∈ (Runs.run (r.step std b.exchange b.pair) (r.start b) sched).history,
      ∃ calls : List BookCall, p = calls.foldl (OrderBook.apply std) b := by
  have h : Sequential (fun call b => OrderBook.start std call b) b
      (Runs.run (r.step std b.exchange b.pair) (r.start b) sched) := by
    refine Runs.invariant_run (fun s a => sequential_step a) sched ?_
    intro p hp
    simp only [Reader.start, List.mem_cons, List.not_mem_nil, or_false, or_self] at hp
    exact ⟨[], hp⟩
  exact fun p hp => h p (List.mem_cons_of_mem _ hp)

/-- In every interleaving in which no iteration spans 2^64 increments, the call
reports a published book in every state exactly when no step leaves the loop on
an odd counter or copies out of range. -/
theorem readers_published_iff_clean (std : StdSort PriceLevel) (r : Reader) (exchange : Exchange)
    (pair : String) (now : TimePoint) (sched : List (Action BookCall))
    (hwrap : Runs.Along (r.step std exchange pair) NoWrap (r.start (.new exchange pair now)) sched) :
    Runs.Always (r.step std exchange pair) (r.Published exchange pair)
        (r.start (.new exchange pair now)) sched ↔
      Runs.Along (r.step std exchange pair) Clean (r.start (.new exchange pair now)) sched := by
  refine always_iff_clean (disciplined_start std) (fun s => published_of_good)
    (fun s => sound_of_published) ?_ ?_ hwrap
  · exact .quiet rfl ⟨_, [], rfl, rfl⟩ rfl rfl
  · trivial

/-! ### Runs that keep and that break the protocol -/

def firstDelta : BookCall := .applyDelta [⟨100, 1⟩] [⟨101, 1⟩] 1 10

def secondDelta : BookCall := .applyDelta [⟨100, 2⟩] [] 2 20

def publishFirst : List (Action BookCall) := .begin firstDelta :: List.replicate 8 .write

def emptyBook : OrderBook := .new .okx "BTC-USDT" 0

/-- `best_bid` is called after the first delta and runs alone. -/
def quietSchedule : List (Action BookCall) := publishFirst ++ List.replicate 5 .read

/-- The second delta is stopped after its first increment; `best_bid` loads 3,
continues and loads 3 again. -/
def oddSchedule : List (Action BookCall) :=
  publishFirst ++ [.begin secondDelta, .write, .write, .read, .read]

/-- `snapshot` copies the sides of the empty book, then the first delta is
published, and the second iteration copies into the shrunk vectors. -/
def shrunkSchedule : List (Action BookCall) :=
  List.replicate 6 .read ++ publishFirst ++ List.replicate 7 .read

theorem short_noWrap (std : StdSort PriceLevel) (r : Reader) (exchange : Exchange) (pair : String)
    (now : TimePoint) {sched : List (Action BookCall)} (hlen : sched.length < 2 ^ 64) :
    Runs.Along (r.step std exchange pair) NoWrap (r.start (.new exchange pair now)) sched :=
  along_noWrap _ _ sched (Nat.le_refl 0) trivial (by simpa [Reader.start] using hlen)

theorem quietSchedule_clean :
    Runs.Along (Reader.bestBid.step .mergeSort .okx "BTC-USDT") Clean
      (Reader.bestBid.start emptyBook) quietSchedule := by
  decide +kernel

theorem bestBid_quietSchedule :
    Runs.Always (Reader.bestBid.step .mergeSort .okx "BTC-USDT")
      (Reader.bestBid.Published .okx "BTC-USDT") (Reader.bestBid.start emptyBook) quietSchedule :=
  (readers_published_iff_clean .mergeSort .bestBid .okx "BTC-USDT" 0 quietSchedule
    (short_noWrap _ _ _ _ _ (by decide))).mpr quietSchedule_clean

theorem bestBid_oddSchedule :
    (Runs.run (Reader.bestBid.step .mergeSort .okx "BTC-USDT") (Reader.bestBid.start emptyBook)
      oddSchedule).phase.result = some (3, none) := by
  have h : (Runs.run (Seqlock.step (fun call b => OrderBook.start .mergeSort call b) bestBid)
      ⟨emptyBook.top, 0, emptyBook, [], [emptyBook], .opening none⟩ oddSchedule).phase.result =
      some (3, none) := by
    decide +kernel
  exact h

theorem snapshot_shrunkSchedule :
    (Runs.run ((Reader.snapshot 5).step .mergeSort .okx "BTC-USDT")
      ((Reader.snapshot 5).start emptyBook) shrunkSchedule).phase.isUndefined = true := by
  decide +kernel

theorem not_published_of_odd {exchange : Exchange} {pair : String} {r : Reader}
    {s : ReaderSystem r} {o : ℕ} {l : r.Locals} (hresult : s.phase.result = some (o, l))
    (hodd : o % 2 = 1) : ¬ r.Published exchange pair s := by
  intro h
  unfold Reader.Published at h
  cases hphase : s.phase with
  | returned o' l' =>
    rw [hphase] at h hresult
    simp only [Phase.result, Option.some.injEq, Prod.mk.injEq] at hresult
    have heven := h.1
    omega
  | opening l' => simp [hphase, Phase.result] at hresult
  | running o' body => simp [hphase, Phase.result] at hresult
  | closing o' l' => simp [hphase, Phase.result] at hresult
  | undefined => simp [hphase, Phase.result] at hresult

theorem not_published_of_undefined {exchange : Exchange} {pair : String} {r : Reader}
    {s : ReaderSystem r} (hund : s.phase.isUndefined = true) : ¬ r.Published exchange pair s := by
  intro h
  unfold Reader.Published at h
  cases hphase : s.phase with
  | undefined =>
    rw [hphase] at h
    exact h
  | opening l' => simp [hphase, Phase.isUndefined] at hund
  | running o' body => simp [hphase, Phase.isUndefined] at hund
  | closing o' l' => simp [hphase, Phase.isUndefined] at hund
  | returned o' l' => simp [hphase, Phase.isUndefined] at hund

/-- Both defects, on schedules that do not wrap the counter. -/
theorem readers_not_always_published :
    (Runs.Along (Reader.bestBid.step .mergeSort .okx "BTC-USDT") NoWrap
        (Reader.bestBid.start emptyBook) oddSchedule ∧
      ¬ Runs.Always (Reader.bestBid.step .mergeSort .okx "BTC-USDT")
        (Reader.bestBid.Published .okx "BTC-USDT") (Reader.bestBid.start emptyBook) oddSchedule) ∧
    (Runs.Along ((Reader.snapshot 5).step .mergeSort .okx "BTC-USDT") NoWrap
        ((Reader.snapshot 5).start emptyBook) shrunkSchedule ∧
      ¬ Runs.Always ((Reader.snapshot 5).step .mergeSort .okx "BTC-USDT")
        ((Reader.snapshot 5).Published .okx "BTC-USDT") ((Reader.snapshot 5).start emptyBook)
        shrunkSchedule) := by
  refine ⟨⟨short_noWrap _ _ _ _ _ (by decide), fun h => ?_⟩,
    ⟨short_noWrap _ _ _ _ _ (by decide), fun h => ?_⟩⟩
  · exact not_published_of_odd bestBid_oddSchedule rfl h.last
  · exact not_published_of_undefined snapshot_shrunkSchedule h.last

end CryptoArbBot
