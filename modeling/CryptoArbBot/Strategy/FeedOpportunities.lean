import CryptoArbBot.Strategy.Exposure
import CryptoArbBot.Strategy.FeedThreads

/-!
# Opportunities and what the feeds have delivered

Whatever the order of the threads' steps, an opportunity that reaches the callback is
executable on two books, each made of the first so many snapshots of its own feed.
-/

namespace CryptoArbBot
open OrderBookAggregator

/-! ### What a call has found -/

namespace SpreadDetector

/-- What has been fired is the best opportunity of some call. -/
structure Found (detector : SpreadDetector) (sys : Interleaving.System Shared ScanCall) : Prop where
  calls : ∀ call ∈ sys.calls, call.Holds detector
  fired : ∀ pass ∈ sys.shared.fired, ∃ call ∈ sys.calls, call.inputs.best detector = some pass.opp

theorem fired_advance_cases (detector : SpreadDetector) (s : Shared) (call : ScanCall) :
    (call.advance detector s).1.fired = s.fired ∨
      ∃ pass, call.stage = .passed pass ∧ (call.advance detector s).1.fired = pass :: s.fired := by
  unfold ScanCall.advance
  cases call.stage with
  | scanning =>
    dsimp only
    split <;> exact .inl rfl
  | won opp =>
    dsimp only
    split <;> exact .inl rfl
  | passed pass => exact .inr ⟨pass, rfl, rfl⟩
  | returned fired => exact .inl rfl

theorem Found.step {detector : SpreadDetector} {sys : Interleaving.System Shared ScanCall}
    (h : Found detector sys) (event : Interleaving.Event ScanInputs ℕ) :
    Found detector (Interleaving.step (program detector) sys event) := by
  refine ⟨Interleaving.forall_calls_step (fun s _ hcall => hcall.advance s) h.calls
    fun _ _ => trivial, ?_⟩
  cases event with
  | start inputs =>
    intro pass hpass
    obtain ⟨call, hcall, hbest⟩ := h.fired pass hpass
    exact ⟨call, List.mem_append_left _ hcall, hbest⟩
  | atomic elapsed => exact h.fired
  | advance i =>
    cases hcall : sys.calls[i]? with
    | none =>
      rw [Interleaving.step_advance_none hcall]
      exact h.fired
    | some call =>
      rw [Interleaving.step_advance_some hcall]
      have hinputs := advance_inputs detector sys.shared call
      have hkept : ∀ opp, (∃ c ∈ sys.calls, c.inputs.best detector = some opp) →
          ∃ c ∈ sys.calls.set i (call.advance detector sys.shared).2,
            c.inputs.best detector = some opp := by
        intro opp hfound
        refine (Interleaving.exists_calls_set (R := False) hcall ?_ hfound).resolve_right id
        intro hbest
        rw [hinputs]
        exact .inl hbest
      intro pass hpass
      have hpass : pass ∈ (call.advance detector sys.shared).1.fired := hpass
      rcases fired_advance_cases detector sys.shared call with hsame | ⟨fired, hstage, hfired⟩
      · rw [hsame] at hpass
        exact hkept pass.opp (h.fired pass hpass)
      · rw [hfired] at hpass
        rcases List.mem_cons.mp hpass with rfl | hold
        · have hholds := h.calls call (List.mem_of_getElem? hcall)
          unfold ScanCall.Holds at hholds
          rw [hstage] at hholds
          exact hkept pass.opp ⟨call, List.mem_of_getElem? hcall, hholds⟩
        · exact hkept pass.opp (h.fired pass hold)

/-! ### One scan of books as they arrive -/

theorem examine_topAsk {detector : SpreadDetector} {fees : FeeManager} {pair : String} {now : TimePoint}
    {buyBook sellBook : OrderBookSnapshot} {opp : ArbitrageOpportunity}
    (h : detector.examine fees pair now buyBook sellBook = some opp) :
    ∃ topAsk asks, buyBook.asks = topAsk :: asks ∧ 0 < topAsk.price := by
  unfold examine at h
  split at h
  next topAsk asks _ _ hasks _ =>
    split at h
    · cases h
    · split at h
      · cases h
      next hprice => exact ⟨topAsk, asks, hasks, not_le.mp fun hle => hprice (.inl hle)⟩
  next => cases h

/-- The bids of the book to buy from do not matter, nor does the sign of the prices:
only asks from a positive one on are examined. -/
theorem examine_executable {detector : SpreadDetector} {fees : FeeManager} {pair : String}
    {now : TimePoint} {buyBook sellBook : OrderBookSnapshot} {opp : ArbitrageOpportunity}
    (hsorted : buyBook.asks.Pairwise fun a b => a.price ≤ b.price)
    (hquantities : ∀ l ∈ buyBook.asks, 0 < l.quantity)
    (h : detector.examine fees pair now buyBook sellBook = some opp) :
    detector.Executable fees pair now buyBook sellBook opp := by
  obtain ⟨topAsk, asks, hasks, htop⟩ := examine_topAsk h
  have hprices : ∀ l ∈ buyBook.asks, 0 < l.price := by
    intro l hl
    rw [hasks] at hsorted hl
    rcases List.mem_cons.mp hl with rfl | hlater
    · exact htop
    · exact htop.trans_le ((List.pairwise_cons.mp hsorted).1 l hlater)
  have hasksSorted : Sorted { buyBook with bids := [] } := ⟨hsorted, .nil⟩
  have hasksPositive : OrderBookSnapshot.Positive { buyBook with bids := [] } :=
    ⟨fun l hl => ⟨hprices l hl, hquantities l hl⟩, List.forall_mem_nil _⟩
  have hopp := examine_some hasksSorted hasksPositive h
  exact ⟨hopp.samePair, hopp.buyExchange, hopp.sellExchange, hopp.quantity, hopp.buyFresh,
    hopp.sellFresh, hopp.buyFillable, hopp.sellFillable, hopp.buyPrice, hopp.sellPrice,
    hopp.buyPrice_pos, hopp.gross, hopp.net, hopp.threshold, hopp.notional⟩

end SpreadDetector

open SpreadDetector

/-! ### From the wire to the callback -/

theorem Handled.kept {std : StdSort PriceLevel} {b b' : OrderBook} {snaps : List FeedSnapshot}
    (h : Handled std b snaps b') (hb : b.Kept) : b'.Kept := by
  obtain ⟨times, _, rfl⟩ := h
  generalize List.zipWith FeedSnapshot.call snaps times = calls
  induction calls generalizing b with
  | nil => exact hb
  | cons call calls ih => exact ih (apply_kept std call hb)

namespace BotSetup
variable {setup : BotSetup} {bot : Bot}

/-- The asks of a snapshot that a feed has built ascend and are all positive in size. -/
theorem FromFeed.asks {pair : String} {snap : OrderBookSnapshot} (h : setup.FromFeed bot pair snap) :
    (snap.asks.Pairwise fun a b => a.price ≤ b.price) ∧ ∀ l ∈ snap.asks, 0 < l.quantity := by
  obtain ⟨book, ⟨snaps, _, hhandled⟩, hsnap⟩ := h.built
  have hkept := hhandled.kept (new_kept ..)
  have hmirrored := hhandled.mirrored (new_mirrored ..)
  obtain ⟨shown, hshown, _, _, _, hasks, _⟩ :=
    snapshot_mirrored hmirrored (show (0 : ℤ) ≤ 20 by decide)
  have hsame : shown = snap := Option.some.inj (hshown.symm.trans hsnap)
  rw [← hsame, hasks]
  refine ⟨hkept.asks.sublist (List.take_sublist _ _), ?_⟩
  intro l hl
  exact hkept.positive l (List.mem_append_right _ (List.mem_of_mem_take hl))

/-- A step of the bot leaves the scans as they are or is a step of the detector. -/
theorem scans_step (setup : BotSetup) (bot : Bot) (event : BotEvent) :
    (setup.step bot event).scans = bot.scans ∨
      ∃ scan, (setup.step bot event).scans =
        Interleaving.step (program setup.detector) bot.scans scan := by
  cases event with
  | elapse elapsed => exact .inr ⟨.atomic elapsed, rfl⟩
  | observe => exact .inl rfl
  | receive exch text =>
    unfold BotSetup.step
    dsimp only
    split <;> exact .inl rfl
  | advance exch readings =>
    unfold BotSetup.step BotSetup.advance
    dsimp only
    split
    · unfold BotSetup.handle
      split
      · exact .inl rfl
      · exact .inl rfl
      · split <;> exact .inl rfl
    · exact .inl rfl
    · exact .inl rfl
    next pair snapshots _ =>
      exact .inr ⟨.start ⟨readings.fees, pair, readings.clock, snapshots⟩, rfl⟩
    next i _ =>
      split
      · exact .inl rfl
      · exact .inr ⟨.advance i, rfl⟩

def throws : BotEvent → Bool
  | .advance _ readings => readings.thrown
  | _ => false

theorem along_uncut {schedule : List BotEvent} (h : ∀ event ∈ schedule, throws event = false)
    (bot : Bot) : Runs.Along setup.step Bot.Uncut bot schedule := by
  refine (Runs.along_of_mem h bot).imp ?_
  intro s event hquiet
  cases event with
  | advance exch readings =>
    intro hthrown
    rw [throws, hthrown] at hquiet
    cases hquiet
  | elapse elapsed => trivial
  | observe => trivial
  | receive exch text => trivial

/-- However the threads of the feeds interleave, an opportunity that reaches the callback
was found in snapshots of two exchanges, each of a book made of the first so many
snapshots that its own feed has delivered for the pair, and it is executable on them. -/
theorem opportunities_from_feeds (hnames : setup.Unambiguous) (now : TimePoint)
    {schedule : List BotEvent}
    (huncut : Runs.Along setup.step Bot.Uncut (setup.start now) schedule) :
    let bot := Runs.run setup.step (setup.start now) schedule
    ∀ pass ∈ bot.scans.shared.fired, ∃ buySnap sellSnap fees time,
      buySnap.exchange ≠ sellSnap.exchange ∧ setup.FromFeed bot pass.opp.pair buySnap ∧
        setup.FromFeed bot pass.opp.pair sellSnap ∧
        setup.detector.Executable fees pass.opp.pair time buySnap sellSnap pass.opp := by
  intro bot pass hpass
  have hinv : setup.Fed bot ∧ Found setup.detector bot.scans := by
    refine Runs.invariant_along
      (I := fun bot => setup.Fed bot ∧ Found setup.detector bot.scans) ?_
      ⟨fed_start now, List.forall_mem_nil _, List.forall_mem_nil _⟩ huncut
    intro s event hs hevent
    refine ⟨hs.1.step hnames hevent, ?_⟩
    rcases scans_step setup s event with hsame | ⟨scan, hscan⟩
    · rw [hsame]
      exact hs.2
    · rw [hscan]
      exact hs.2.step scan
  obtain ⟨call, hcall, hbest⟩ := hinv.2.fired pass hpass
  have hread := hinv.1.calls call hcall
  obtain ⟨i, j, buySnap, sellSnap, hij, hi, hj, hexamine⟩ := scanPair_some (scanPair_of_best hbest)
  have hbuy := hread.fromFeed buySnap (List.mem_of_getElem? hi)
  have hsell := hread.fromFeed sellSnap (List.mem_of_getElem? hj)
  obtain ⟨hsorted, hquantities⟩ := hbuy.asks
  have hopp := examine_executable hsorted hquantities hexamine
  have hnodup := hread.nodup
  rw [List.append_nil] at hnodup
  rw [hopp.samePair]
  exact ⟨buySnap, sellSnap, call.inputs.fees, call.inputs.clock i j,
    exchange_ne_of_index hnodup hij hi hj, hbuy, hsell, hopp⟩

end BotSetup

/-! ### A crossed book -/

def crossedBook : String :=
  String.join ["\x7b\"arg\":\x7b\"channel\":\"books5\",\"instId\":\"BTC-USDT\"\x7d,\"data\":",
    "[\x7b\"asks\":[[\"104\",\"1\"]],\"bids\":[[\"103\",\"2\"]],\"ts\":\"9\"\x7d]\x7d"]

def crossedReaders : FeedReaders :=
  { sampleReaders with
    parse := fun text =>
      if text = crossedBook then
        .ok (.object [("arg", .object [("channel", .string "books5"), ("instId", .string "BTC-USDT")]),
          ("data", .array [.object [("asks", .array [jsonLevel "104" "1"]),
            ("bids", .array [jsonLevel "103" "2"]), ("ts", .string "9")]])])
      else sampleReaders.parse text }

def crossedSetup : BotSetup where
  std := .insertionSort
  feeds := liveFeeds crossedReaders fun
    | .bybit => sampleAdapters .bybit
    | _ => sampleAdapters .okx
  exchanges := [.okx, .bybit]
  pairs := ["BTC-USDT"]
  detector := ⟨3, 50, 1000⟩
  created _ _ := 0

/-- Both feeds write, then the thread of OKX scans while that of Bybit has still to read. -/
def crossedSchedule : List BotEvent :=
  let readings : Readings := { fees := {}, clock := fun _ _ => 10 }
  [.observe, .receive .bybit bybitBook, .elapse 5, .receive .okx crossedBook, .advance .okx readings,
    .advance .bybit readings, .advance .bybit readings] ++ List.replicate 8 (.advance .okx readings)

theorem crossedBook_found :
    let bot := Runs.run crossedSetup.step (crossedSetup.start 0) crossedSchedule
    bot.scans.shared.fired.length = 1 ∧ ∀ pass ∈ bot.scans.shared.fired,
      ∃ buySnap sellSnap fees time, buySnap.exchange ≠ sellSnap.exchange ∧
        crossedSetup.FromFeed bot pass.opp.pair buySnap ∧
        crossedSetup.FromFeed bot pass.opp.pair sellSnap ∧
        crossedSetup.detector.Executable fees pass.opp.pair time buySnap sellSnap pass.opp := by
  have hnames : crossedSetup.Unambiguous := by
    intro _ _ p hp q hq _
    rw [List.mem_singleton.mp hp, List.mem_singleton.mp hq]
  refine ⟨by decide +kernel, ?_⟩
  exact BotSetup.opportunities_from_feeds hnames 0 (BotSetup.along_uncut (by decide) _)

end CryptoArbBot
