import CryptoArbBot.Exchange.AllFeeds
import CryptoArbBot.Exchange.FeedRuns
import CryptoArbBot.OrderBook.BookInvariant
import CryptoArbBot.Strategy.Cooldown

/-!
# The threads of the feeds and the detector (main.cpp)

Each feed has a thread that handles its messages. It writes the book of a snapshot and,
once the observer is set, scans the pair: it reads the books of the exchanges one after
another, looks for the best opportunity and takes it through the cooldown to the
callback. The threads take these steps beside each other.
-/

namespace CryptoArbBot
open OrderBookAggregator SpreadDetector

/-! ### The threads -/

/-- What `main` has set up when the first message arrives. -/
structure BotSetup where
  std : StdSort PriceLevel
  feeds : Exchange → Feed
  exchanges : List Exchange
  pairs : List String
  detector : SpreadDetector
  created : Exchange → String → TimePoint

inductive FeedStage where
  | handling
  | notifying (pair : String)
  -- `get_pair_snapshots`, with the books that are left to read
  | reading (pair : String) (left : List Exchange) (snapshots : List OrderBookSnapshot)
  -- the loops of `scan_pair` and what follows them
  | scanning (i : ℕ)

/-- What is left of the message, and how far the callback is. -/
structure FeedThread where
  items : List FeedItem := []
  stage : FeedStage := .handling

structure Received where
  exch : Exchange
  now : TimePoint
  text : String

structure Bot where
  aggregator : OrderBookAggregator
  scans : Interleaving.System Shared ScanCall
  threads : Exchange → FeedThread := fun _ => {}
  observed : Bool := false
  /-- The history of the messages, in order. -/
  received : List Received := []

/-- What a scan gets from outside: the fees, the clock in its loops, and whether the
callback throws. -/
structure Readings where
  fees : FeeManager
  clock : ℕ → ℕ → TimePoint
  thrown : Bool := false

inductive BotEvent where
  | elapse (elapsed : ℕ)
  /-- `set_update_callback` -/
  | observe
  | receive (exch : Exchange) (text : String)
  | advance (exch : Exchange) (readings : Readings)

def FeedThread.idle (thread : FeedThread) : Bool :=
  match thread.stage with
  | .handling => thread.items.isEmpty
  | _ => false

namespace Bot

def now (bot : Bot) : TimePoint := bot.scans.shared.now

def goOn (bot : Bot) (exch : Exchange) (thread : FeedThread) : Bot :=
  { bot with threads := Function.update bot.threads exch thread }

@[simp] theorem threads_goOn (bot : Bot) (exch : Exchange) (thread : FeedThread) :
    (bot.goOn exch thread).threads exch = thread := Function.update_self ..

theorem threads_goOn_of_ne (bot : Bot) {exch exch' : Exchange} (h : exch' ≠ exch)
    (thread : FeedThread) : (bot.goOn exch thread).threads exch' = bot.threads exch' :=
  Function.update_of_ne h ..

/-- Where the callback of a scan throws, no snapshot of its message is left. -/
def Uncut (bot : Bot) : BotEvent → Prop
  | .advance exch readings =>
    readings.thrown = true → (∃ i, (bot.threads exch).stage = .scanning i) →
      (bot.threads exch).items.filterMap FeedItem.snapshot? = []
  | _ => True

end Bot

namespace BotSetup
variable (setup : BotSetup)

def slots : List (Exchange × String) :=
  setup.exchanges.flatMap fun exch => setup.pairs.map fun pair => (exch, pair)

def start (now : TimePoint) : Bot where
  aggregator := setup.slots.foldl (fun aggregator slot =>
    aggregator.getOrCreateBook slot.1 slot.2 (setup.created slot.1 slot.2)) .empty
  scans := ⟨{ now }, []⟩

/-- The pair of the callback that a feed has for a native symbol: the last one stands. -/
def subscribed (exch : Exchange) (symbol : String) : Option String :=
  if exch ∈ setup.exchanges then
    setup.pairs.reverse.find? fun pair => (setup.feeds exch).symbol pair = symbol
  else none

/-- The callback of an entry up to the notification. -/
def write (bot : Bot) (exch : Exchange) (pair : String) (snap : FeedSnapshot)
    (items : List FeedItem) : Bot :=
  { bot with
    aggregator := bot.aggregator.applyTo setup.std exch pair bot.now (snap.call bot.now) }.goOn exch
    { items, stage := .notifying pair }

/-- The next item of the message. -/
def handle (bot : Bot) (exch : Exchange) : Bot :=
  match (bot.threads exch).items with
  | [] => bot
  | .send _ :: items => bot.goOn exch { items }
  | .deliver snap :: items =>
    match setup.subscribed exch snap.pair with
    | none => bot.goOn exch { items }
    | some pair => setup.write bot exch pair snap items

def advance (bot : Bot) (exch : Exchange) (readings : Readings) : Bot :=
  let items := (bot.threads exch).items
  match (bot.threads exch).stage with
  | .handling => setup.handle bot exch
  | .notifying pair =>
    bot.goOn exch
      { items
        stage :=
          if bot.observed then
            .reading pair (Exchange.ids.filter fun exch => (bot.aggregator.getBook exch pair).isSome) []
          else .handling }
  | .reading pair (source :: left) snapshots =>
    let snap := (bot.aggregator.getBook source pair).bind (·.snapshot 20)
    bot.goOn exch { items, stage := .reading pair left (snapshots ++ snap.toList) }
  | .reading pair [] snapshots =>
    { bot with
      scans := Interleaving.step (program setup.detector) bot.scans
        (.start ⟨readings.fees, pair, readings.clock, snapshots⟩) }.goOn exch
      { items, stage := .scanning bot.scans.calls.length }
  | .scanning i =>
    match bot.scans.calls[i]?.map ScanCall.stage with
    | some (.returned fired) =>
      -- what the callback throws ends the message
      bot.goOn exch { items := if fired.isSome && readings.thrown then [] else items }
    | _ => { bot with scans := Interleaving.step (program setup.detector) bot.scans (.advance i) }

def receive (bot : Bot) (exch : Exchange) (text : String) : Bot :=
  let message : Received := ⟨exch, bot.now, text⟩
  { bot with received := bot.received ++ [message] }.goOn exch
    { items := (setup.feeds exch).items bot.now text }

def step (bot : Bot) : BotEvent → Bot
  | .elapse elapsed =>
    { bot with scans := Interleaving.step (program setup.detector) bot.scans (.atomic elapsed) }
  | .observe => { bot with observed := true }
  | .receive exch text =>
    -- the connection hands over the next message when its thread is back
    if (bot.threads exch).idle then setup.receive bot exch text else bot
  | .advance exch readings => setup.advance bot exch readings

/-- A thread writes the book that the callback of its adapter writes. -/
theorem handle_call {ρ : Type} {setup : BotSetup} {bot : Bot} (venue : DepthVenue) {R : FeedReaders}
    {a : Adapter} (hfeed : setup.feeds venue.exchange = venue.feed R a)
    (hactive : venue.exchange ∈ setup.exchanges) {snap : FeedSnapshot} {items : List FeedItem}
    (hitems : (bot.threads venue.exchange).items = .deliver snap :: items) (outside : BotRest ρ)
    {rest : ρ} (hclock : outside.clock rest = bot.now) :
    (setup.handle bot venue.exchange).aggregator =
      ((venue.subscribeAll setup.std outside a setup.pairs).call snap
        ⟨bot.aggregator, rest⟩).2.aggregator := by
  have hsubscribed : setup.subscribed venue.exchange snap.pair =
      setup.pairs.reverse.find? fun pair => venue.venue.normalizePair a pair = snap.pair := by
    rw [subscribed, if_pos hactive, hfeed]
    rfl
  rw [call_subscribeAll, ← hsubscribed, handle, hitems]
  dsimp only
  cases setup.subscribed venue.exchange snap.pair with
  | none => rfl
  | some pair =>
    dsimp only
    rw [bookCallback_books, hclock]
    rfl

/-! ### What has been delivered -/

def ofPair (exch : Exchange) (pair : String) (items : List FeedItem) : List FeedSnapshot :=
  (items.filterMap FeedItem.snapshot?).filter fun snap => snap.pair = (setup.feeds exch).symbol pair

/-- The snapshots that a feed has delivered for a pair. -/
def delivered (bot : Bot) (exch : Exchange) (pair : String) : List FeedSnapshot :=
  bot.received.flatMap fun message =>
    if message.exch = exch then
      setup.ofPair exch pair ((setup.feeds exch).items message.now message.text)
    else []

/-- A book that the first so many of these snapshots have built. -/
def Built (bot : Bot) (exch : Exchange) (pair : String) (book : OrderBook) : Prop :=
  ∃ snaps, snaps <+: setup.delivered bot exch pair ∧
    Handled setup.std (.new exch pair (setup.created exch pair)) snaps book

/-- A snapshot of a book as it was at some moment. -/
structure FromFeed (bot : Bot) (pair : String) (snap : OrderBookSnapshot) : Prop where
  exchange : snap.exchange ∈ setup.exchanges
  built : ∃ book, setup.Built bot snap.exchange pair book ∧ book.snapshot 20 = some snap

/-- What a scan has read, with the exchanges it still reads. -/
structure ReadFrom (bot : Bot) (pair : String) (left : List Exchange)
    (snapshots : List OrderBookSnapshot) : Prop where
  monitored : pair ∈ setup.pairs
  nodup : (snapshots.map (·.exchange) ++ left).Nodup
  fromFeed : ∀ snap ∈ snapshots, setup.FromFeed bot pair snap

def StageReads (bot : Bot) : FeedStage → Prop
  | .handling | .scanning _ => True
  | .notifying pair => pair ∈ setup.pairs
  | .reading pair left snapshots => setup.ReadFrom bot pair left snapshots

/-- Each book is made of what its feed has delivered, less what its thread has still to
handle, and the scans have read such books only. -/
structure Fed (bot : Bot) : Prop where
  books : ∀ exch ∈ setup.exchanges, ∀ pair ∈ setup.pairs, ∃ book snaps,
    bot.aggregator.books pair exch = some book ∧
      Handled setup.std (.new exch pair (setup.created exch pair)) snaps book ∧
      snaps ++ setup.ofPair exch pair (bot.threads exch).items = setup.delivered bot exch pair
  elsewhere : ∀ exch pair, (bot.aggregator.books pair exch).isSome → exch ∈ setup.exchanges
  threads : ∀ exch, setup.StageReads bot (bot.threads exch).stage
  calls : ∀ call ∈ bot.scans.calls, setup.ReadFrom bot call.inputs.pair [] call.inputs.snapshots

def Unambiguous : Prop :=
  ∀ exch ∈ setup.exchanges, ∀ p ∈ setup.pairs, ∀ q ∈ setup.pairs,
    (setup.feeds exch).symbol p = (setup.feeds exch).symbol q → p = q

/-! ### Books and readings along a run -/

variable {setup} {bot bot' : Bot}

theorem delivered_of_received (hreceived : bot'.received = bot.received) (exch : Exchange)
    (pair : String) : setup.delivered bot exch pair <+: setup.delivered bot' exch pair := by
  rw [delivered, delivered, hreceived]

section Grows
variable (hgrows : ∀ exch pair, setup.delivered bot exch pair <+: setup.delivered bot' exch pair)
include hgrows

theorem FromFeed.grow {pair : String} {snap : OrderBookSnapshot} (h : setup.FromFeed bot pair snap) :
    setup.FromFeed bot' pair snap := by
  obtain ⟨book, ⟨snaps, hprefix, hhandled⟩, hsnap⟩ := h.built
  exact ⟨h.exchange, book, ⟨snaps, hprefix.trans (hgrows _ _), hhandled⟩, hsnap⟩

theorem ReadFrom.grow {pair : String} {left : List Exchange} {snapshots : List OrderBookSnapshot}
    (h : setup.ReadFrom bot pair left snapshots) : setup.ReadFrom bot' pair left snapshots :=
  ⟨h.monitored, h.nodup, fun snap hsnap => (h.fromFeed snap hsnap).grow hgrows⟩

theorem StageReads.grow {stage : FeedStage} (h : setup.StageReads bot stage) :
    setup.StageReads bot' stage := by
  cases stage with
  | handling => trivial
  | notifying pair => exact h
  | reading pair left snapshots => exact ReadFrom.grow hgrows h
  | scanning i => trivial

theorem Fed.stages_goOn (h : setup.Fed bot) {exch : Exchange}
    (hothers : ∀ exch' ≠ exch, bot'.threads exch' = bot.threads exch')
    (hstage : setup.StageReads bot' (bot'.threads exch).stage) (exch' : Exchange) :
    setup.StageReads bot' (bot'.threads exch').stage := by
  by_cases hsame : exch' = exch
  · rw [hsame]
    exact hstage
  · rw [hothers exch' hsame]
    exact (h.threads exch').grow hgrows

end Grows

/-- A thread goes on without losing a snapshot. -/
theorem Fed.goOn (h : setup.Fed bot) {exch : Exchange} {thread : FeedThread}
    (hitems : exch ∈ setup.exchanges → ∀ pair ∈ setup.pairs,
      setup.ofPair exch pair thread.items = setup.ofPair exch pair (bot.threads exch).items)
    (hstage : setup.StageReads bot thread.stage) : setup.Fed (bot.goOn exch thread) := by
  have hothers : ∀ exch' ≠ exch, (bot.goOn exch thread).threads exch' = bot.threads exch' :=
    fun exch' hne => bot.threads_goOn_of_ne hne thread
  have hgrows := @delivered_of_received setup bot (bot.goOn exch thread) rfl
  constructor
  case books =>
    intro exch' hexch' pair hpair
    obtain ⟨book, snaps, hbook, hhandled, hsnaps⟩ := h.books exch' hexch' pair hpair
    refine ⟨book, snaps, hbook, hhandled, ?_⟩
    by_cases hsame : exch' = exch
    · subst hsame
      rw [Bot.threads_goOn, hitems hexch' pair hpair]
      exact hsnaps
    · rw [hothers exch' hsame]
      exact hsnaps
  case elsewhere => exact h.elsewhere
  case threads =>
    refine h.stages_goOn hgrows hothers ?_
    rw [Bot.threads_goOn]
    exact hstage.grow hgrows
  case calls => exact fun call hcall => (h.calls call hcall).grow hgrows

theorem Fed.scan (h : setup.Fed bot) {event : Interleaving.Event ScanInputs ℕ}
    (hstart : ∀ inputs, event = .start inputs → setup.ReadFrom bot inputs.pair [] inputs.snapshots) :
    setup.Fed { bot with scans := Interleaving.step (program setup.detector) bot.scans event } := by
  have hgrows := @delivered_of_received setup bot
    { bot with scans := Interleaving.step (program setup.detector) bot.scans event } rfl
  have hcalls : ∀ call ∈ (Interleaving.step (program setup.detector) bot.scans event).calls,
      setup.ReadFrom bot call.inputs.pair [] call.inputs.snapshots := by
    refine Interleaving.forall_calls_step
      (Q := fun call : ScanCall => setup.ReadFrom bot call.inputs.pair [] call.inputs.snapshots) ?_
      h.calls hstart
    intro s call hcall
    have hinputs := advance_inputs setup.detector s call
    rw [← hinputs] at hcall
    exact hcall
  exact ⟨h.books, h.elsewhere, fun exch => (h.threads exch).grow hgrows,
    fun call hcall => (hcalls call hcall).grow hgrows⟩

/-! ### The steps -/

theorem subscribed_some {exch : Exchange} {symbol pair : String}
    (h : setup.subscribed exch symbol = some pair) :
    exch ∈ setup.exchanges ∧ pair ∈ setup.pairs ∧ (setup.feeds exch).symbol pair = symbol := by
  unfold subscribed at h
  split at h
  next hexch =>
    have hsymbol := List.find?_some h
    exact ⟨hexch, List.mem_reverse.mp (List.mem_of_find?_eq_some h), of_decide_eq_true hsymbol⟩
  next => cases h

theorem subscribed_none {exch : Exchange} {symbol pair : String}
    (h : setup.subscribed exch symbol = none) (hexch : exch ∈ setup.exchanges)
    (hpair : pair ∈ setup.pairs) : (setup.feeds exch).symbol pair ≠ symbol := by
  unfold subscribed at h
  rw [if_pos hexch] at h
  have hnone := List.find?_eq_none.mp h pair (List.mem_reverse.mpr hpair)
  exact fun hsymbol => hnone (decide_eq_true hsymbol)

theorem ofPair_deliver_same {exch : Exchange} {pair : String} {snap : FeedSnapshot}
    (h : (setup.feeds exch).symbol pair = snap.pair) (items : List FeedItem) :
    setup.ofPair exch pair (.deliver snap :: items) = snap :: setup.ofPair exch pair items :=
  List.filter_cons_of_pos (by simpa using h.symm)

theorem ofPair_deliver_other {exch : Exchange} {pair : String} {snap : FeedSnapshot}
    (h : (setup.feeds exch).symbol pair ≠ snap.pair) (items : List FeedItem) :
    setup.ofPair exch pair (.deliver snap :: items) = setup.ofPair exch pair items :=
  List.filter_cons_of_neg (by simpa using h.symm)

theorem Fed.write (h : setup.Fed bot) (hnames : setup.Unambiguous) {exch : Exchange}
    {snap : FeedSnapshot} {items : List FeedItem}
    (hitems : (bot.threads exch).items = .deliver snap :: items) {pair : String}
    (hpair : setup.subscribed exch snap.pair = some pair) :
    setup.Fed (setup.write bot exch pair snap items) := by
  obtain ⟨hexch, hmem, hsymbol⟩ := subscribed_some hpair
  have hgrows := @delivered_of_received setup bot (setup.write bot exch pair snap items) rfl
  have hself : (setup.write bot exch pair snap items).threads exch = ⟨items, .notifying pair⟩ :=
    Bot.threads_goOn ..
  have hothers : ∀ exch' ≠ exch,
      (setup.write bot exch pair snap items).threads exch' = bot.threads exch' :=
    fun _ hne => Bot.threads_goOn_of_ne _ hne _
  have hbooks : ∀ exch' pair',
      (setup.write bot exch pair snap items).aggregator.books pair' exch' =
        if pair' = pair ∧ exch' = exch then
          some ((bot.aggregator.bookOrNew exch pair bot.now).apply setup.std (snap.call bot.now))
        else bot.aggregator.books pair' exch' := fun _ _ => rfl
  constructor
  case books =>
    intro exch' hexch' pair' hpair'
    obtain ⟨book, snaps, hbook, hhandled, hsnaps⟩ := h.books exch' hexch' pair' hpair'
    by_cases hsame : exch' = exch
    · subst hsame
      rw [hitems] at hsnaps
      rw [hself, hbooks]
      by_cases hkey : pair' = pair
      · subst hkey
        rw [ofPair_deliver_same hsymbol] at hsnaps
        refine ⟨book.apply setup.std (snap.call bot.now), snaps ++ [snap], ?_,
          hhandled.append (.single _ _ _ _), ?_⟩
        · rw [if_pos ⟨rfl, rfl⟩, bookOrNew, getBook, hbook]
          rfl
        · rw [List.append_assoc]
          exact hsnaps
      · have hother : (setup.feeds exch').symbol pair' ≠ snap.pair := fun heq =>
          hkey (hnames exch' hexch' pair' hpair' pair hmem (heq.trans hsymbol.symm))
        rw [ofPair_deliver_other hother] at hsnaps
        rw [if_neg fun hslot => hkey hslot.1]
        exact ⟨book, snaps, hbook, hhandled, hsnaps⟩
    · rw [hothers exch' hsame, hbooks, if_neg fun hslot => hsame hslot.2]
      exact ⟨book, snaps, hbook, hhandled, hsnaps⟩
  case elsewhere =>
    intro exch' pair' hsome
    rw [hbooks] at hsome
    split at hsome
    next hslot =>
      rw [hslot.2]
      exact hexch
    next => exact h.elsewhere exch' pair' hsome
  case threads =>
    refine h.stages_goOn hgrows hothers ?_
    rw [hself]
    exact hmem
  case calls => exact fun call hcall => (h.calls call hcall).grow hgrows

theorem Fed.handle (h : setup.Fed bot) (hnames : setup.Unambiguous) (exch : Exchange) :
    setup.Fed (setup.handle bot exch) := by
  unfold BotSetup.handle
  cases hitems : (bot.threads exch).items with
  | nil => exact h
  | cons item items =>
    cases item with
    | send frame =>
      refine h.goOn ?_ trivial
      intro _ pair _
      rw [hitems]
      rfl
    | deliver snap =>
      dsimp only
      cases hpair : setup.subscribed exch snap.pair with
      | none =>
        refine h.goOn ?_ trivial
        intro hexch pair hmem
        rw [hitems, ofPair_deliver_other (subscribed_none hpair hexch hmem)]
      | some pair => exact h.write hnames hitems hpair

theorem items_of_idle {thread : FeedThread} (h : thread.idle = true) : thread.items = [] := by
  unfold FeedThread.idle at h
  split at h
  · exact List.isEmpty_iff.mp h
  · cases h

theorem delivered_receive (bot : Bot) (exch : Exchange) (text : String) (exch' : Exchange)
    (pair : String) :
    setup.delivered (setup.receive bot exch text) exch' pair =
      setup.delivered bot exch' pair ++
        if exch = exch' then setup.ofPair exch' pair ((setup.feeds exch').items bot.now text) else [] := by
  have hone : ∀ message : Received, setup.delivered
      { bot with received := bot.received ++ [message] } exch' pair =
        setup.delivered bot exch' pair ++
          if message.exch = exch' then
            setup.ofPair exch' pair ((setup.feeds exch').items message.now message.text)
          else [] := by
    intro message
    rw [delivered, List.flatMap_append, List.flatMap_singleton]
    rfl
  exact hone ⟨exch, bot.now, text⟩

theorem Fed.receive (h : setup.Fed bot) {exch : Exchange} (hidle : (bot.threads exch).idle = true)
    (text : String) : setup.Fed (setup.receive bot exch text) := by
  have hgrows : ∀ exch' pair, setup.delivered bot exch' pair <+:
      setup.delivered (setup.receive bot exch text) exch' pair := by
    intro exch' pair
    rw [delivered_receive]
    exact List.prefix_append _ _
  have hself : (setup.receive bot exch text).threads exch =
      ⟨(setup.feeds exch).items bot.now text, .handling⟩ := Bot.threads_goOn ..
  have hothers : ∀ exch' ≠ exch,
      (setup.receive bot exch text).threads exch' = bot.threads exch' :=
    fun _ hne => Bot.threads_goOn_of_ne _ hne _
  constructor
  case books =>
    intro exch' hexch' pair hpair
    obtain ⟨book, snaps, hbook, hhandled, hsnaps⟩ := h.books exch' hexch' pair hpair
    refine ⟨book, snaps, hbook, hhandled, ?_⟩
    rw [delivered_receive, ← hsnaps]
    by_cases hsame : exch' = exch
    · subst hsame
      rw [hself, items_of_idle hidle, if_pos rfl]
      simp [ofPair]
    · rw [hothers exch' hsame, if_neg fun heq => hsame heq.symm, List.append_nil]
  case elsewhere => exact h.elsewhere
  case threads =>
    refine h.stages_goOn hgrows hothers ?_
    rw [hself]
    trivial
  case calls => exact fun call hcall => (h.calls call hcall).grow hgrows

/-- One more book is read, of an exchange that was still to come. -/
theorem Fed.read (h : setup.Fed bot) {pair : String} {source : Exchange} {left : List Exchange}
    {snapshots : List OrderBookSnapshot} (hread : setup.ReadFrom bot pair (source :: left) snapshots) :
    setup.ReadFrom bot pair left
      (snapshots ++ ((bot.aggregator.getBook source pair).bind (·.snapshot 20)).toList) := by
  have hskip : (snapshots.map (·.exchange) ++ left).Nodup :=
    hread.nodup.sublist ((List.sublist_cons_self source left).append_left _)
  cases hbook : bot.aggregator.getBook source pair with
  | none =>
    rw [Option.bind_none, Option.toList_none, List.append_nil]
    exact ⟨hread.monitored, hskip, hread.fromFeed⟩
  | some book =>
    obtain ⟨hexch, _, hmirrored⟩ := bot.aggregator.keyed pair source book hbook
    obtain ⟨snap, hsnap, hsource, _⟩ := snapshot_mirrored hmirrored (show (0 : ℤ) ≤ 20 by decide)
    rw [hexch] at hsource
    have hactive : source ∈ setup.exchanges := h.elsewhere source pair (by
      rw [show bot.aggregator.books pair source = some book from hbook]
      rfl)
    obtain ⟨book', snaps, hbook', hhandled, hsnaps⟩ := h.books source hactive pair hread.monitored
    have hsame : book' = book := Option.some.inj (hbook'.symm.trans hbook)
    subst hsame
    rw [Option.bind_some, hsnap, Option.toList_some]
    constructor
    case monitored => exact hread.monitored
    case nodup =>
      rw [List.map_append, List.map_singleton, hsource, List.append_assoc]
      exact hread.nodup
    case fromFeed =>
      intro snap' hsnap'
      rcases List.mem_append.mp hsnap' with hold | hnew
      · exact hread.fromFeed snap' hold
      · rw [List.mem_singleton.mp hnew]
        have hbuilt : setup.Built bot source pair book' := ⟨snaps, ⟨_, hsnaps⟩, hhandled⟩
        rw [← hsource] at hactive hbuilt
        exact ⟨hactive, book', hbuilt, hsnap⟩

theorem Fed.advance (h : setup.Fed bot) (hnames : setup.Unambiguous) (exch : Exchange)
    (readings : Readings) (huncut : bot.Uncut (.advance exch readings)) :
    setup.Fed (setup.advance bot exch readings) := by
  have hstage := h.threads exch
  unfold BotSetup.advance
  dsimp only
  cases hcase : (bot.threads exch).stage with
  | handling => exact h.handle hnames exch
  | notifying pair =>
    rw [hcase] at hstage
    refine h.goOn (fun _ _ _ => rfl) ?_
    dsimp only
    split
    · have hids : Exchange.ids.Nodup := by decide
      have hnodup := hids.filter fun exch => (bot.aggregator.getBook exch pair).isSome
      exact ⟨hstage, hnodup, nofun⟩
    · trivial
  | reading pair left snapshots =>
    rw [hcase] at hstage
    cases left with
    | nil =>
      have hstart : ∀ inputs : ScanInputs,
          Interleaving.Event.start ⟨readings.fees, pair, readings.clock, snapshots⟩ =
            (.start inputs : Interleaving.Event ScanInputs ℕ) →
          setup.ReadFrom bot inputs.pair [] inputs.snapshots := by
        intro inputs heq
        cases heq
        exact hstage
      exact (h.scan hstart).goOn (fun _ _ _ => rfl) trivial
    | cons source left => exact h.goOn (fun _ _ _ => rfl) (h.read hstage)
  | scanning i =>
    dsimp only
    split
    next fired hreturned =>
      refine h.goOn ?_ trivial
      intro _ pair _
      dsimp only
      split
      next hthrown =>
        have hnone := huncut (Bool.and_eq_true_iff.mp hthrown).2 ⟨i, hcase⟩
        rw [ofPair, ofPair, hnone]
        rfl
      next => rfl
    next => exact h.scan fun _ heq => by cases heq

theorem Fed.step (h : setup.Fed bot) (hnames : setup.Unambiguous) {event : BotEvent}
    (huncut : bot.Uncut event) : setup.Fed (setup.step bot event) := by
  cases event with
  | elapse elapsed => exact h.scan fun _ heq => by cases heq
  | observe =>
    have hgrows := @delivered_of_received setup bot { bot with observed := true } rfl
    exact ⟨h.books, h.elsewhere, fun exch => (h.threads exch).grow hgrows,
      fun call hcall => (h.calls call hcall).grow hgrows⟩
  | receive exch text =>
    unfold BotSetup.step
    dsimp only
    split
    next hidle => exact h.receive hidle text
    next => exact h
  | advance exch readings => exact h.advance hnames exch readings huncut

theorem fed_start (now : TimePoint) : setup.Fed (setup.start now) := by
  have hbooks : ∀ exch pair, (setup.start now).aggregator.books pair exch =
      if (exch, pair) ∈ setup.slots then some (.new exch pair (setup.created exch pair)) else none :=
    fun exch pair => books_foldl_create setup.created setup.slots (fun _ _ _ h => by cases h) exch pair
  have hslots : ∀ exch pair, (exch, pair) ∈ setup.slots ↔ exch ∈ setup.exchanges ∧ pair ∈ setup.pairs := by
    intro exch pair
    simp [slots, List.mem_flatMap]
  constructor
  case books =>
    intro exch hexch pair hpair
    refine ⟨_, [], (hbooks exch pair).trans (if_pos ((hslots exch pair).mpr ⟨hexch, hpair⟩)),
      .nil _ _, rfl⟩
  case elsewhere =>
    intro exch pair hsome
    rw [hbooks] at hsome
    split at hsome
    next hslot => exact ((hslots exch pair).mp hslot).1
    next => cases hsome
  case threads => exact fun _ => trivial
  case calls => exact List.forall_mem_nil _

end BotSetup

end CryptoArbBot
