import CryptoArbBot.Exchange.FeedDelivery
import CryptoArbBot.Exchange.SymbolMapping
import CryptoArbBot.OrderBook.Aggregator
import CryptoArbBot.OrderBook.Refinement

/-!
# From the feeds to the books (main.cpp)

The callback that `main` registers for an exchange and a pair writes the snapshot to
their book and then notifies the aggregator's observer. Each feed handles its
messages one after another on its own thread; a run is any interleaving of them.
-/

namespace CryptoArbBot
open OrderBookAggregator

/-! ### The callbacks -/

/-- The rest of the program as the callbacks meet it: the clock, the observer of
the aggregator, which reads the books, and the connections. -/
structure BotRest (ρ : Type) where
  clock : ρ → TimePoint
  notify : String → OrderBookAggregator → ρ → Except String Unit × ρ
  send : DepthVenue → Frame → ρ → ρ

structure BotWorld (ρ : Type) where
  aggregator : OrderBookAggregator
  rest : ρ

def FeedSnapshot.call (snap : FeedSnapshot) (now : TimePoint) : BookCall :=
  if snap.isDelta then .applyDelta snap.bids snap.asks snap.sequenceId now
  else .applySnapshot snap.bids snap.asks snap.sequenceId now

def DepthVenue.venue : DepthVenue → Venue
  | .bybit => .bybit
  | .okx => .okx
  | .mexc => .mexc
  | .gateio => .gateio

variable {ρ : Type} (std : StdSort PriceLevel) (bot : BotRest ρ)

/-- The lambda of `main` for one exchange and one pair. -/
def bookCallback (exch : Exchange) (pair : String) : FeedCallback (BotWorld ρ) := fun snap w =>
  let now := bot.clock w.rest
  let aggregator := w.aggregator.applyTo std exch pair now (snap.call now)
  match bot.notify pair aggregator w.rest with
  | (.ok (), rest) => (.ok (), ⟨aggregator, rest⟩)
  | (.error what, rest) => (.error (.exception what), ⟨aggregator, rest⟩)

/-- `subscribe_order_book` of an adapter. -/
def DepthVenue.subscribeOrderBook {σ : Type} (venue : DepthVenue) (a : Adapter) (ws : DepthWs σ)
    (pair : String) (cb : FeedCallback σ) : DepthWs σ :=
  ws.subscribeDepth (venue.venue.normalizePair a pair) fun snap => cb { snap with pair := pair }

def DepthVenue.subscribeAll (venue : DepthVenue) (a : Adapter) (pairs : List String) :
    DepthWs (BotWorld ρ) :=
  pairs.foldl
    (fun ws pair => venue.subscribeOrderBook a ws pair (bookCallback std bot venue.exchange pair))
    { send := fun frame w => { w with rest := bot.send venue frame w.rest } }

/-- The books that `main` creates while it subscribes. -/
def createBooks (created : Exchange → String → TimePoint) (venues : List DepthVenue)
    (pairs : List String) : OrderBookAggregator :=
  (venues.flatMap fun venue => pairs.map fun pair => (venue.exchange, pair)).foldl
    (fun aggregator slot => aggregator.getOrCreateBook slot.1 slot.2 (created slot.1 slot.2)) .empty

/-! ### Runs -/

structure Arrival where
  venue : DepthVenue
  now : TimePoint
  text : String

def FeedReaders.at (R : FeedReaders) (now : TimePoint) : FeedReaders := { R with now := now }

def arrive (R : FeedReaders) (feeds : DepthVenue → DepthWs (BotWorld ρ)) (w : BotWorld ρ)
    (arrival : Arrival) : BotWorld ρ :=
  (arrival.venue.onMessage (R.at arrival.now) (feeds arrival.venue) arrival.text ⟨false, w⟩).2.world

/-- The snapshots of a message for a native symbol of a feed. -/
def Arrival.delivered (R : FeedReaders) (venue : DepthVenue) (symbol : String) (arrival : Arrival) :
    List FeedSnapshot :=
  if arrival.venue = venue then
    (venue.snapshots (R.at arrival.now) arrival.text).filter fun snap => snap.pair = symbol
  else []

/-! ### Which callback a symbol has -/

theorem find?_subscribeDepth {σ : Type} (ws : DepthWs σ) (symbol : String) (cb : FeedCallback σ)
    (key : String) :
    (ws.subscribeDepth symbol cb).callbacks.find? (fun entry => entry.1 = key) =
      if symbol = key then some (symbol, cb) else ws.callbacks.find? fun entry => entry.1 = key := by
  unfold DepthWs.subscribeDepth
  by_cases hkey : symbol = key
  · rw [if_pos hkey, List.find?_cons_of_pos (by simpa using hkey)]
  · rw [if_neg hkey, List.find?_cons_of_neg (by simpa using hkey)]
    induction ws.callbacks with
    | nil => rfl
    | cons entry entries ih =>
      by_cases hsame : entry.1 = symbol
      · have hother : ¬ entry.1 = key := fun h => hkey (hsame ▸ h)
        rw [List.filter_cons_of_neg (by simpa using hsame), ih,
          List.find?_cons_of_neg (by simpa using hother)]
      · rw [List.filter_cons_of_pos (by simpa using hsame)]
        by_cases hentry : entry.1 = key
        · rw [List.find?_cons_of_pos (by simpa using hentry),
            List.find?_cons_of_pos (by simpa using hentry)]
        · rw [List.find?_cons_of_neg (by simpa using hentry), ih,
            List.find?_cons_of_neg (by simpa using hentry)]

/-- The callback of a symbol is that of the last pair that stands for it. -/
theorem call_subscribeAll (venue : DepthVenue) (a : Adapter) (pairs : List String)
    (snap : FeedSnapshot) (w : BotWorld ρ) :
    (venue.subscribeAll std bot a pairs).call snap w =
      match pairs.reverse.find? fun pair => venue.venue.normalizePair a pair = snap.pair with
      | some pair => bookCallback std bot venue.exchange pair { snap with pair := pair } w
      | none => (.ok (), w) := by
  unfold DepthWs.call DepthVenue.subscribeAll
  induction pairs using List.reverseRecOn with
  | nil => rfl
  | append_singleton pairs pair ih =>
    rw [List.foldl_append, List.foldl_cons, List.foldl_nil, DepthVenue.subscribeOrderBook,
      find?_subscribeDepth, List.reverse_append, List.reverse_singleton, List.singleton_append]
    by_cases hpair : venue.venue.normalizePair a pair = snap.pair
    · rw [if_pos hpair, List.find?_cons_of_pos (by simpa using hpair)]
    · rw [if_neg hpair, List.find?_cons_of_neg (by simpa using hpair), ih]

theorem send_subscribeAll (venue : DepthVenue) (a : Adapter) (pairs : List String) (frame : Frame)
    (w : BotWorld ρ) :
    (venue.subscribeAll std bot a pairs).send frame w =
      { w with rest := bot.send venue frame w.rest } := by
  unfold DepthVenue.subscribeAll
  induction pairs using List.reverseRecOn with
  | nil => rfl
  | append_singleton pairs pair ih =>
    rw [List.foldl_append]
    exact ih

/-- No two of the pairs have one native symbol. -/
def DepthVenue.Unambiguous (venue : DepthVenue) (a : Adapter) (pairs : List String) : Prop :=
  ∀ p ∈ pairs, ∀ q ∈ pairs, venue.venue.normalizePair a p = venue.venue.normalizePair a q → p = q

theorem find?_native {venue : DepthVenue} {a : Adapter} {pairs : List String}
    (hnames : venue.Unambiguous a pairs) {pair : String} (hpair : pair ∈ pairs) :
    (pairs.reverse.find? fun p => venue.venue.normalizePair a p = venue.venue.normalizePair a pair) =
      some pair := by
  cases hfound : pairs.reverse.find? fun p =>
      venue.venue.normalizePair a p = venue.venue.normalizePair a pair with
  | none =>
    have hnone := List.find?_eq_none.mp hfound pair (List.mem_reverse.mpr hpair)
    simp at hnone
  | some p =>
    have hmem := List.mem_reverse.mp (List.mem_of_find?_eq_some hfound)
    have hsame := List.find?_some hfound
    rw [hnames p hmem pair hpair (of_decide_eq_true hsame)]

/-! ### One snapshot -/

/-- The book after the snapshots, with some clock reading for each. -/
def Handled (b : OrderBook) (snaps : List FeedSnapshot) (b' : OrderBook) : Prop :=
  ∃ times : List TimePoint, times.length = snaps.length ∧
    b' = (List.zipWith FeedSnapshot.call snaps times).foldl (OrderBook.apply std) b

theorem Handled.nil (b : OrderBook) : Handled std b [] b := ⟨[], rfl, rfl⟩

theorem Handled.single (b : OrderBook) (snap : FeedSnapshot) (now : TimePoint) :
    Handled std b [snap] (b.apply std (snap.call now)) := ⟨[now], rfl, rfl⟩

variable {std} in
theorem Handled.append {b b' b'' : OrderBook} {snaps snaps' : List FeedSnapshot}
    (h : Handled std b snaps b') (h' : Handled std b' snaps' b'') :
    Handled std b (snaps ++ snaps') b'' := by
  obtain ⟨times, hlen, rfl⟩ := h
  obtain ⟨times', hlen', rfl⟩ := h'
  refine ⟨times ++ times', by simp [hlen, hlen'], ?_⟩
  rw [List.zipWith_append hlen.symm, List.foldl_append]

theorem bookCallback_books (exch : Exchange) (pair : String) (snap : FeedSnapshot) (w : BotWorld ρ) :
    (bookCallback std bot exch pair snap w).2.aggregator =
      w.aggregator.applyTo std exch pair (bot.clock w.rest) (snap.call (bot.clock w.rest)) := by
  unfold bookCallback
  dsimp only
  split
  · rfl
  · rfl

theorem bookCallback_ok (hnotify : ∀ pair aggregator rest, (bot.notify pair aggregator rest).1 = .ok ())
    (exch : Exchange) (pair : String) (snap : FeedSnapshot) (w : BotWorld ρ) :
    (bookCallback std bot exch pair snap w).1 = .ok () := by
  unfold bookCallback
  dsimp only
  split
  · rfl
  next what rest heq =>
    have hok := congrArg Prod.fst heq
    rw [hnotify] at hok
    cases hok

section Call
variable {venue : DepthVenue} {a : Adapter} {pairs : List String}

theorem call_elsewhere (snap : FeedSnapshot) (w : BotWorld ρ) {exch : Exchange}
    (hexch : exch ≠ venue.exchange) (pair : String) :
    ((venue.subscribeAll std bot a pairs).call snap w).2.aggregator.books pair exch =
      w.aggregator.books pair exch := by
  rw [call_subscribeAll]
  split
  · rw [bookCallback_books]
    exact if_neg fun h => hexch h.2
  · rfl

/-- A snapshot writes the book of the pair whose native symbol it names and no other. -/
theorem call_book (hnames : venue.Unambiguous a pairs) {pair : String} (hpair : pair ∈ pairs)
    (snap : FeedSnapshot) {w : BotWorld ρ} {b : OrderBook}
    (hbook : w.aggregator.books pair venue.exchange = some b) :
    ∃ b', ((venue.subscribeAll std bot a pairs).call snap w).2.aggregator.books pair venue.exchange =
        some b' ∧
      Handled std b ([snap].filter fun s => s.pair = venue.venue.normalizePair a pair) b' := by
  rw [call_subscribeAll]
  by_cases hsymbol : snap.pair = venue.venue.normalizePair a pair
  · rw [hsymbol, find?_native hnames hpair, List.filter_cons_of_pos (by simpa using hsymbol),
      List.filter_nil]
    refine ⟨b.apply std (snap.call (bot.clock w.rest)), ?_, .single std b snap _⟩
    dsimp only
    rw [bookCallback_books]
    refine (if_pos ⟨rfl, rfl⟩).trans ?_
    rw [bookOrNew, getBook, hbook, Option.getD_some]
    rfl
  · rw [List.filter_cons_of_neg (by simpa using hsymbol), List.filter_nil]
    refine ⟨b, ?_, .nil std b⟩
    split
    next other hfound =>
      rw [bookCallback_books]
      refine (if_neg ?_).trans hbook
      rintro ⟨rfl, _⟩
      have hsame := List.find?_some hfound
      exact hsymbol (of_decide_eq_true hsame).symm
    next => exact hbook

theorem call_ok (hnotify : ∀ pair aggregator rest, (bot.notify pair aggregator rest).1 = .ok ())
    (snap : FeedSnapshot) (w : BotWorld ρ) :
    ((venue.subscribeAll std bot a pairs).call snap w).1 = .ok () := by
  rw [call_subscribeAll]
  split
  · exact bookCallback_ok std bot hnotify _ _ _ _
  · rfl

/-! ### One message -/

theorem runItems_elsewhere {exch : Exchange} (hexch : exch ≠ venue.exchange) (pair : String)
    (items : List FeedItem) (w : BotWorld ρ) :
    ((venue.subscribeAll std bot a pairs).runItems w items).2.aggregator.books pair exch =
      w.aggregator.books pair exch := by
  induction items generalizing w with
  | nil => rfl
  | cons item items ih =>
    have hitem : ((venue.subscribeAll std bot a pairs).runItem w item).2.aggregator.books pair exch =
        w.aggregator.books pair exch := by
      cases item with
      | send frame =>
        rw [DepthWs.runItem, send_subscribeAll]
      | deliver snap => exact call_elsewhere std bot snap w hexch pair
    unfold DepthWs.runItems
    split
    next w' heq =>
      rw [heq] at hitem
      exact (ih w').trans hitem
    next t w' heq =>
      rw [heq] at hitem
      exact hitem

/-- Only what an observer throws can keep the later entries of a message from their book. -/
theorem runItems_book (hnames : venue.Unambiguous a pairs) {pair : String} (hpair : pair ∈ pairs)
    (items : List FeedItem)
    (hcomplete : (∀ pair aggregator rest, (bot.notify pair aggregator rest).1 = .ok ()) ∨
      (items.filterMap FeedItem.snapshot?).length ≤ 1)
    {w : BotWorld ρ} {b : OrderBook} (hbook : w.aggregator.books pair venue.exchange = some b) :
    ∃ b', ((venue.subscribeAll std bot a pairs).runItems w items).2.aggregator.books pair
        venue.exchange = some b' ∧
      Handled std b ((items.filterMap FeedItem.snapshot?).filter fun s =>
        s.pair = venue.venue.normalizePair a pair) b' := by
  induction items generalizing w b with
  | nil => exact ⟨b, hbook, .nil std b⟩
  | cons item items ih =>
    cases item with
    | send frame =>
      refine ih hcomplete ?_
      rw [send_subscribeAll]
      exact hbook
    | deliver snap =>
      obtain ⟨b', hbook', hhandled⟩ := call_book std bot hnames hpair snap hbook
      have hsnaps : (FeedItem.deliver snap :: items).filterMap FeedItem.snapshot? =
          [snap] ++ items.filterMap FeedItem.snapshot? := rfl
      rw [hsnaps, List.filter_append]
      rw [DepthWs.runItems, DepthWs.runItem]
      split
      next w' heq =>
        rw [heq] at hbook'
        obtain ⟨b'', hlast, hrest⟩ := ih (hcomplete.imp_right fun hle => by
          rw [hsnaps, List.length_append] at hle
          omega) hbook'
        exact ⟨b'', hlast, hhandled.append hrest⟩
      next t w' heq =>
        rw [heq] at hbook'
        refine ⟨b', hbook', ?_⟩
        rcases hcomplete with hnotify | hle
        · have hok := congrArg Prod.fst heq
          rw [call_ok std bot hnotify] at hok
          cases hok
        · have hnone : items.filterMap FeedItem.snapshot? = [] := by
            rw [hsnaps, List.length_append, List.length_singleton] at hle
            exact List.eq_nil_of_length_eq_zero (by omega)
          rw [hnone, List.filter_nil, List.append_nil]
          exact hhandled

end Call

/-! ### Runs of all feeds -/

section Runs
variable {bot} {R : FeedReaders} {adapters : DepthVenue → Adapter} {pairs : List String}

/-- No observer throws, or no message carries two snapshots. -/
def Complete (bot : BotRest ρ) (R : FeedReaders) (arrivals : List Arrival) : Prop :=
  (∀ pair aggregator rest, (bot.notify pair aggregator rest).1 = .ok ()) ∨
    ∀ arrival ∈ arrivals, (arrival.venue.snapshots (R.at arrival.now) arrival.text).length ≤ 1

theorem DepthVenue.exchange_injective : Function.Injective DepthVenue.exchange := by
  intro v v' h
  cases v <;> cases v' <;> first | rfl | cases h

theorem arrive_world (feeds : DepthVenue → DepthWs (BotWorld ρ)) (w : BotWorld ρ) (arrival : Arrival) :
    arrive R feeds w arrival =
      ((feeds arrival.venue).runItems w (arrival.venue.items (R.at arrival.now) arrival.text)).2 := by
  rw [arrive, DepthVenue.onMessage_eq]

theorem arrive_book (venue : DepthVenue) (hnames : venue.Unambiguous (adapters venue) pairs)
    {pair : String} (hpair : pair ∈ pairs) (arrival : Arrival) (hcomplete : Complete bot R [arrival])
    {w : BotWorld ρ} {b : OrderBook} (hbook : w.aggregator.books pair venue.exchange = some b) :
    ∃ b', (arrive R (fun v => v.subscribeAll std bot (adapters v) pairs) w arrival).aggregator.books
        pair venue.exchange = some b' ∧
      Handled std b
        (arrival.delivered R venue (venue.venue.normalizePair (adapters venue) pair)) b' := by
  rw [arrive_world]
  by_cases hvenue : arrival.venue = venue
  · subst hvenue
    rw [Arrival.delivered, if_pos rfl]
    exact runItems_book std bot hnames hpair _
      (hcomplete.imp_right fun h => h arrival (List.mem_singleton_self _)) hbook
  · rw [Arrival.delivered, if_neg hvenue]
    refine ⟨b, ?_, .nil std b⟩
    rw [runItems_elsewhere std bot (fun h => hvenue (DepthVenue.exchange_injective h).symm)]
    exact hbook

theorem run_book (venue : DepthVenue) (hnames : venue.Unambiguous (adapters venue) pairs)
    {pair : String} (hpair : pair ∈ pairs) (arrivals : List Arrival)
    (hcomplete : Complete bot R arrivals) {w : BotWorld ρ} {b : OrderBook}
    (hbook : w.aggregator.books pair venue.exchange = some b) :
    ∃ b', (Runs.run (arrive R fun v => v.subscribeAll std bot (adapters v) pairs) w
        arrivals).aggregator.books pair venue.exchange = some b' ∧
      Handled std b (arrivals.flatMap fun arrival => arrival.delivered R venue
        (venue.venue.normalizePair (adapters venue) pair)) b' := by
  induction arrivals generalizing w b with
  | nil => exact ⟨b, hbook, .nil std b⟩
  | cons arrival arrivals ih =>
    have hfirst : Complete bot R [arrival] := hcomplete.imp_right fun h other hother => by
      rw [List.mem_singleton.mp hother]
      exact h arrival (List.mem_cons_self ..)
    have hrest : Complete bot R arrivals :=
      hcomplete.imp_right fun h other hother => h other (List.mem_cons_of_mem _ hother)
    obtain ⟨b', hbook', hhandled⟩ := arrive_book std venue hnames hpair arrival hfirst hbook
    obtain ⟨b'', hbook'', hlast⟩ := ih hrest hbook'
    rw [List.flatMap_cons]
    exact ⟨b'', hbook'', hhandled.append hlast⟩

end Runs

end CryptoArbBot
