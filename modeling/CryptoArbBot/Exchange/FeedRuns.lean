import CryptoArbBot.Exchange.AllFeeds
import CryptoArbBot.Exchange.Submission

/-!
# Runs of the feeds

However the feeds' messages are interleaved, the book of an exchange and a pair is
made of the snapshots its own feed delivered for the pair's own symbol, in their
order. So it refines the price map of these snapshots, and where a feed sends whole
books it holds the last of them.
-/

namespace CryptoArbBot
open OrderBookAggregator SortedMap

variable {ρ : Type} {std : StdSort PriceLevel} {bot : BotRest ρ} {R : FeedReaders}

/-! ### The lock and the snapshots -/

/-- A message never makes the feed's thread wait for itself, leaves the lock free,
and what it hands over is a well-formed snapshot of the feed. Binance's thread keeps to
this as well, unless the message takes the single-stream form. -/
theorem onMessage_hands_over {σ : Type} (R : FeedReaders) (ws : DepthWs σ) (venue : DepthVenue)
    (binance : BinanceWs σ) (msg : String) (world : σ) :
    (MutexAct.Free (venue.onMessage R ws msg) ⟨false, world⟩ ∧
      (venue.onMessage R ws msg ⟨false, world⟩).2.held = false ∧
      (venue.onMessage R ws msg ⟨false, world⟩).2.world =
        (ws.runItems world (venue.items R msg)).2 ∧
      ∀ snap ∈ venue.snapshots R msg, snap.WellFormed venue) ∧
    (¬ BinanceWs.SingleStream R.toReaders binance msg →
      MutexAct.Free (BinanceWs.onMessage R.toReaders binance msg) ⟨false, world⟩ ∧
        (BinanceWs.onMessage R.toReaders binance msg ⟨false, world⟩).2 =
          ⟨false, binance.handOver (BinanceWs.readStream R.toReaders msg).toOption.join world⟩) := by
  have heq := DepthVenue.onMessage_eq R ws venue msg world
  constructor
  case left =>
    refine ⟨?_, ?_, ?_, venue.snapshots_wellFormed R msg⟩
    · unfold MutexAct.Free
      rw [heq]
      unfold DepthWs.swallowed
      split
      · nofun
      · nofun
    · rw [heq]
    · rw [heq]
  case right =>
    intro hcombined
    exact ⟨(BinanceWs.onMessage_free_iff R.toReaders binance msg world).mpr hcombined,
      BinanceWs.onMessage_world R.toReaders binance hcombined world⟩

/-! ### The books at the start -/

/-- Books that are all new are told apart by the slots they were created for. -/
theorem books_foldl_create (created : Exchange → String → TimePoint)
    (slots : List (Exchange × String)) {aggregator : OrderBookAggregator}
    (hnew : ∀ exch pair book, aggregator.books pair exch = some book →
      book = .new exch pair (created exch pair)) (exch : Exchange) (pair : String) :
    (slots.foldl (fun aggregator slot =>
        aggregator.getOrCreateBook slot.1 slot.2 (created slot.1 slot.2)) aggregator).books pair exch =
      if (exch, pair) ∈ slots then some (.new exch pair (created exch pair))
      else aggregator.books pair exch := by
  induction slots generalizing aggregator with
  | nil => rfl
  | cons slot slots ih =>
    have hmade : aggregator.bookOrNew slot.1 slot.2 (created slot.1 slot.2) =
        .new slot.1 slot.2 (created slot.1 slot.2) := by
      unfold bookOrNew getBook
      cases hbook : aggregator.books slot.2 slot.1 with
      | none => rfl
      | some book => exact hnew slot.1 slot.2 book hbook
    have hslot : ∀ exch' pair', (aggregator.getOrCreateBook slot.1 slot.2
        (created slot.1 slot.2)).books pair' exch' =
          if (exch', pair') = slot then some (.new exch' pair' (created exch' pair'))
          else aggregator.books pair' exch' := by
      intro exch' pair'
      unfold getOrCreateBook
      dsimp only
      by_cases hkey : (exch', pair') = slot
      · subst hkey
        rw [if_pos ⟨rfl, rfl⟩, if_pos rfl, hmade]
      · rw [if_neg hkey, if_neg fun h => hkey (Prod.ext h.2 h.1)]
    rw [List.foldl_cons, ih, hslot]
    · by_cases hkey : (exch, pair) = slot
      · simp [hkey]
      · simp [hkey]
    · intro exch' pair' book hbook
      rw [hslot] at hbook
      split at hbook
      · exact (Option.some.inj hbook).symm
      · exact hnew exch' pair' book hbook

theorem createBooks_book (created : Exchange → String → TimePoint) {venues : List DepthVenue}
    {pairs : List String} {venue : DepthVenue} (hvenue : venue ∈ venues) {pair : String}
    (hpair : pair ∈ pairs) :
    (createBooks created venues pairs).books pair venue.exchange =
      some (.new venue.exchange pair (created venue.exchange pair)) := by
  have hempty : ∀ exch pair book, empty.books pair exch = some book →
      book = .new exch pair (created exch pair) := fun _ _ _ h => by cases h
  rw [createBooks, books_foldl_create created _ hempty, if_pos]
  exact List.mem_flatMap.mpr ⟨venue, hvenue, List.mem_map_of_mem hpair⟩

/-! ### The price map of a feed -/

theorem call_prices (snap : FeedSnapshot) (now : TimePoint) :
    (snap.call now).prices = (snap.bids ++ snap.asks).map (·.price) := by
  unfold FeedSnapshot.call
  split <;> rfl

theorem call_distinct {snap : FeedSnapshot} (h : (snap.call 0).Distinct) (now : TimePoint) :
    (snap.call now).Distinct := by
  unfold FeedSnapshot.call at h ⊢
  split <;> simp_all [BookCall.Distinct]

theorem bookMap_call (m : BookMap) (snap : FeedSnapshot) (now now' : TimePoint) :
    m.apply (snap.call now) = m.apply (snap.call now') := by
  unfold FeedSnapshot.call
  split <;> rfl

theorem mem_zipWith_call {snaps : List FeedSnapshot} {times : List TimePoint} {call : BookCall}
    (h : call ∈ List.zipWith FeedSnapshot.call snaps times) :
    ∃ snap ∈ snaps, ∃ now, call = snap.call now := by
  obtain ⟨i, hi⟩ := List.mem_iff_getElem?.mp h
  obtain ⟨snap, now, hsnap, _, rfl⟩ := List.getElem?_zipWith_eq_some.mp hi
  exact ⟨snap, List.mem_of_getElem? hsnap, now, rfl⟩

theorem bookMap_zipWith (snaps : List FeedSnapshot) (times : List TimePoint)
    (hlen : times.length = snaps.length) (m : BookMap) :
    (List.zipWith FeedSnapshot.call snaps times).foldl BookMap.apply m =
      (snaps.map fun snap => snap.call 0).foldl BookMap.apply m := by
  induction snaps generalizing times m with
  | nil => rfl
  | cons snap snaps ih =>
    cases times with
    | nil => cases hlen
    | cons now times =>
      simp only [List.zipWith_cons_cons, List.map_cons, List.foldl_cons]
      rw [bookMap_call m snap now 0]
      exact ih times (Nat.succ.inj hlen) _

theorem Handled.refines {b b' : OrderBook} {snaps : List FeedSnapshot} (h : Handled std b snaps b')
    {m : BookMap} {prices : Set ℚ} (hrefines : Refines prices b m) (hsep : Separated prices)
    (hprices : ∀ snap ∈ snaps, ∀ p ∈ (snap.call 0).prices, p ∈ prices)
    (hdistinct : ∀ snap ∈ snaps, (snap.call 0).Distinct) :
    Refines prices b' ((snaps.map fun snap => snap.call 0).foldl BookMap.apply m) := by
  obtain ⟨times, hlen, rfl⟩ := h
  rw [← bookMap_zipWith snaps times hlen m]
  refine hrefines.run std hsep _ ?_ ?_
  · intro call hcall p hp
    obtain ⟨snap, hsnap, now, rfl⟩ := mem_zipWith_call hcall
    refine hprices snap hsnap p ?_
    rw [call_prices] at hp ⊢
    exact hp
  · intro call hcall
    obtain ⟨snap, hsnap, now, rfl⟩ := mem_zipWith_call hcall
    exact call_distinct (hdistinct snap hsnap) now

/-! ### The configured pairs -/

/-- Pairs against USDT have different native symbols at every venue. -/
theorem unambiguous_usdt (venue : DepthVenue) (table : PairMap venue.venue) (a : Adapter)
    {bases : List String} (hbases : ∀ base ∈ bases, TradedBase base) :
    venue.Unambiguous (a.withPairs table) (bases.map (· ++ "-USDT")) := by
  intro p hp q hq hsame
  obtain ⟨base, hbase, rfl⟩ := List.mem_map.mp hp
  obtain ⟨base', hbase', rfl⟩ := List.mem_map.mp hq
  rw [Venue.normalizePair_usdt table a (hbases base hbase),
    Venue.normalizePair_usdt table a (hbases base' hbase')] at hsame
  rw [append_usdt_injective hsame]

section Runs
variable {adapters : DepthVenue → Adapter} {venues : List DepthVenue} {pairs : List String}
  {created : Exchange → String → TimePoint}

/-- After any interleaving of the feeds' messages the book of a feed and a pair lists
the maps that the feed's snapshots of that pair alone have built. -/
theorem feeds_refine_bookMap (rest : ρ) (arrivals : List Arrival) {venue : DepthVenue}
    (hvenue : venue ∈ venues) {pair : String} (hpair : pair ∈ pairs)
    (hnames : venue.Unambiguous (adapters venue) pairs) (hcomplete : Complete bot R arrivals)
    {snaps : List FeedSnapshot}
    (hsnaps : snaps = arrivals.flatMap fun arrival =>
      arrival.delivered R venue (venue.venue.normalizePair (adapters venue) pair))
    (hsep : Separated {p | ∃ snap ∈ snaps, p ∈ (snap.call 0).prices})
    (hdistinct : ∀ snap ∈ snaps, (snap.call 0).Distinct) :
    ∃ book, (Runs.run (arrive R fun v => v.subscribeAll std bot (adapters v) pairs)
        ⟨createBooks created venues pairs, rest⟩ arrivals).aggregator.books pair venue.exchange =
          some book ∧
      Refines {p | ∃ snap ∈ snaps, p ∈ (snap.call 0).prices} book
        ((snaps.map fun snap => snap.call 0).foldl BookMap.apply {}) := by
  obtain ⟨book, hbook, hhandled⟩ := run_book std venue hnames hpair arrivals hcomplete
    (w := ⟨createBooks created venues pairs, rest⟩) (createBooks_book created hvenue hpair)
  rw [← hsnaps] at hhandled
  exact ⟨book, hbook, hhandled.refines (refines_new _ _ _ _) hsep
    (fun snap hsnap p hp => ⟨snap, hsnap, hp⟩) hdistinct⟩

/-! ### Feeds that send whole books -/

theorem Handled.split {b b' : OrderBook} {snaps snaps' : List FeedSnapshot}
    (h : Handled std b (snaps ++ snaps') b') :
    ∃ middle, Handled std b snaps middle ∧ Handled std middle snaps' b' := by
  obtain ⟨times, hlen, rfl⟩ := h
  rw [List.length_append] at hlen
  refine ⟨_, ⟨times.take snaps.length, by rw [List.length_take]; omega, rfl⟩,
    ⟨times.drop snaps.length, by rw [List.length_drop]; omega, ?_⟩⟩
  rw [← List.foldl_append, ← List.zipWith_append (by rw [List.length_take]; omega),
    List.take_append_drop]

theorem Handled.eq_apply {b b' : OrderBook} {snap : FeedSnapshot} (h : Handled std b [snap] b') :
    ∃ now : TimePoint, b' = b.apply std (snap.call now) := by
  obtain ⟨times, hlen, rfl⟩ := h
  obtain ⟨now, rfl⟩ := List.length_eq_one_iff.mp hlen
  exact ⟨now, rfl⟩

/-- The sides of a book are the levels of a snapshot, best first. -/
structure OrderBook.Holds (b : OrderBook) (snap : FeedSnapshot) : Prop where
  bids : b.bids.Perm snap.bids
  asks : b.asks.Perm snap.asks
  bidsSorted : b.bids.Pairwise fun l l' => l'.price ≤ l.price
  asksSorted : b.asks.Pairwise fun l l' => l.price ≤ l'.price
  sequenceId : b.top.lastSequenceId = snap.sequenceId
  mirrored : b.Mirrored

theorem filter_positive {levels : List PriceLevel} (h : ∀ l ∈ levels, 0 < l.quantity) :
    levels.filter (fun l => l.quantity > 0) = levels :=
  List.filter_eq_self.mpr fun l hl => decide_eq_true (h l hl)

theorem apply_wellFormed {venue : DepthVenue} {snap : FeedSnapshot} (h : snap.WellFormed venue)
    (hwhole : venue = .okx ∨ venue = .mexc) {b : OrderBook} (hb : b.Mirrored) (now : TimePoint) :
    (b.apply std (snap.call now)).Holds snap := by
  have hdelta := h.whole hwhole
  have hvenue : venue ≠ .bybit := by
    rcases hwhole with rfl | rfl
    · nofun
    · nofun
  have hpos := h.positive hdelta hvenue
  have hbids := filter_positive fun l hl => hpos l (List.mem_append_left _ hl)
  have hasks := filter_positive fun l hl => hpos l (List.mem_append_right _ hl)
  have hcall : snap.call now = .applySnapshot snap.bids snap.asks snap.sequenceId now := by
    unfold FeedSnapshot.call
    rw [hdelta, if_neg Bool.false_ne_true]
  have hmirrored := apply_mirrored std (snap.call now) hb
  rw [hcall] at hmirrored ⊢
  constructor
  case bids => exact (std.perm _ _).trans (.of_eq hbids)
  case asks => exact (std.perm _ _).trans (.of_eq hasks)
  case bidsSorted => exact sorted_descending std _
  case asksSorted => exact sorted_ascending std _
  case sequenceId => exact install_lastSequenceId ..
  case mirrored => exact hmirrored

theorem Handled.mirrored {b b' : OrderBook} {snaps : List FeedSnapshot} (h : Handled std b snaps b')
    (hb : b.Mirrored) : b'.Mirrored := by
  obtain ⟨times, _, rfl⟩ := h
  generalize List.zipWith FeedSnapshot.call snaps times = calls
  induction calls generalizing b with
  | nil => exact hb
  | cons call calls ih => exact ih (apply_mirrored std call hb)

/-- OKX and MEXC send whole books: a pair's book holds the last snapshot that was
delivered for the pair, whatever else has arrived. -/
theorem book_holds_last_snapshot (rest : ρ) (arrivals : List Arrival) {venue : DepthVenue}
    (hvenue : venue ∈ venues) (hwhole : venue = .okx ∨ venue = .mexc) {pair : String}
    (hpair : pair ∈ pairs) (hnames : venue.Unambiguous (adapters venue) pairs)
    (hcomplete : Complete bot R arrivals) {before : List FeedSnapshot} {last : FeedSnapshot}
    (hlast : (arrivals.flatMap fun arrival => arrival.delivered R venue
      (venue.venue.normalizePair (adapters venue) pair)) = before ++ [last]) :
    ∃ book, (Runs.run (arrive R fun v => v.subscribeAll std bot (adapters v) pairs)
        ⟨createBooks created venues pairs, rest⟩ arrivals).aggregator.books pair venue.exchange =
          some book ∧ book.Holds last := by
  obtain ⟨book, hbook, hhandled⟩ := run_book std venue hnames hpair arrivals hcomplete
    (w := ⟨createBooks created venues pairs, rest⟩) (createBooks_book created hvenue hpair)
  have hformed : last.WellFormed venue := by
    have hmem : last ∈ arrivals.flatMap fun arrival => arrival.delivered R venue
        (venue.venue.normalizePair (adapters venue) pair) := by
      rw [hlast]
      exact List.mem_append_right _ (List.mem_singleton_self _)
    obtain ⟨arrival, _, hdelivered⟩ := List.mem_flatMap.mp hmem
    unfold Arrival.delivered at hdelivered
    split at hdelivered
    · exact venue.snapshots_wellFormed _ _ last (List.mem_of_mem_filter hdelivered)
    · cases hdelivered
  rw [hlast] at hhandled
  obtain ⟨middle, hbefore, hone⟩ := hhandled.split
  have hmiddle := hbefore.mirrored (new_mirrored ..)
  obtain ⟨now, rfl⟩ := hone.eq_apply
  exact ⟨_, hbook, apply_wellFormed hformed hwhole hmiddle now⟩

end Runs

/-! ### A run -/

def bybitBook : String :=
  String.join ["\x7b\"topic\":\"orderbook.50.BTCUSDT\",\"type\":\"snapshot\",\"data\":",
    "\x7b\"b\":[[\"99\",\"2\"],[\"100\",\"1\"]],\"a\":[[\"101\",\"3\"]],\"u\":7\x7d\x7d"]

def bybitDelta : String :=
  String.join ["\x7b\"topic\":\"orderbook.50.BTCUSDT\",\"type\":\"delta\",\"data\":",
    "\x7b\"b\":[[\"99\",\"0\"]],\"a\":[],\"u\":8\x7d\x7d"]

def okxBook : String :=
  String.join ["\x7b\"arg\":\x7b\"channel\":\"books5\",\"instId\":\"BTC-USDT\"\x7d,\"data\":",
    "[\x7b\"asks\":[[\"101.5\",\"1\"]],\"bids\":[[\"100.5\",\"2\"]],\"ts\":\"9\"\x7d]\x7d"]

def streamBook : String :=
  String.join ["\x7b\"stream\":\"btcusdt@depth20@100ms\",\"data\":",
    "\x7b\"lastUpdateId\":5,\"bids\":[[\"99\",\"1\"]],\"asks\":[]\x7d\x7d"]

def jsonLevel (price quantity : String) : Json := .array [.string price, .string quantity]

def sampleReaders : FeedReaders where
  parse text :=
    if text = bybitBook then
      .ok (.object [("data", .object [("a", .array [jsonLevel "101" "3"]),
          ("b", .array [jsonLevel "99" "2", jsonLevel "100" "1"]), ("u", .integer 7)]),
        ("topic", .string "orderbook.50.BTCUSDT"), ("type", .string "snapshot")])
    else if text = bybitDelta then
      .ok (.object [("data", .object [("a", .array []), ("b", .array [jsonLevel "99" "0"]),
          ("u", .integer 8)]),
        ("topic", .string "orderbook.50.BTCUSDT"), ("type", .string "delta")])
    else if text = okxBook then
      .ok (.object [("arg", .object [("channel", .string "books5"), ("instId", .string "BTC-USDT")]),
        ("data", .array [.object [("asks", .array [jsonLevel "101.5" "1"]),
          ("bids", .array [jsonLevel "100.5" "2"]), ("ts", .string "9")]])])
    else if text = streamBook then
      .ok (.object [("data", .object [("asks", .array []), ("bids", .array [jsonLevel "99" "1"]),
          ("lastUpdateId", .integer 5)]),
        ("stream", .string "btcusdt@depth20@100ms")])
    else .error "[json.exception.parse_error.101]"
  stod := CryptoArbBot.stod
  stoull := CryptoArbBot.stoull
  sort := .insertionSort
  now := 0

/-- Its callback lists the bids that it is given. -/
def listingBids : BinanceWs (List PriceLevel) :=
  ⟨[("btcusdt", fun snap seen => (.ok (), seen ++ snap.bids))]⟩

theorem streamBook_combined : ¬ BinanceWs.SingleStream sampleReaders.toReaders listingBids streamBook := by
  have hcontains : (sampleReaders.parse streamBook).toOption.map (·.contains "stream") = some true := by
    decide +kernel
  rintro ⟨j, hj, hstream, _⟩
  rw [hj] at hcontains
  exact hstream (Option.some.inj hcontains)

theorem streamBook_handed_over :
    MutexAct.Free (BinanceWs.onMessage sampleReaders.toReaders listingBids streamBook) ⟨false, []⟩ ∧
      (BinanceWs.onMessage sampleReaders.toReaders listingBids streamBook ⟨false, []⟩).2 =
        ⟨false, [⟨99, 1⟩]⟩ := by
  obtain ⟨hfree, hworld⟩ := (onMessage_hands_over sampleReaders ⟨[], fun _ seen => seen⟩ .okx listingBids
    streamBook []).2 streamBook_combined
  refine ⟨hfree, hworld.trans (congrArg (LockState.mk false) ?_)⟩
  decide +kernel

def sampleArrivals : List Arrival :=
  [⟨.bybit, 1, bybitBook⟩, ⟨.okx, 2, okxBook⟩, ⟨.bybit, 3, bybitDelta⟩]

def quietBot : BotRest Unit where
  clock _ := 0
  notify _ _ _ := (.ok (), ())
  send _ _ _ := ()

def sampleSnaps : List FeedSnapshot :=
  [{ exchange := .bybit, pair := "BTCUSDT", bids := [⟨100, 1⟩, ⟨99, 2⟩], asks := [⟨101, 3⟩],
      sequenceId := 7, localTimestamp := 1 },
    { exchange := .bybit, pair := "BTCUSDT", bids := [⟨99, 0⟩], asks := [], sequenceId := 8,
      localTimestamp := 3, isDelta := true }]

def sampleAdapters (venue : DepthVenue) : Adapter :=
  plainAdapter.withPairs (⟨venue.venue.buildPairMap, .refl _⟩ : PairMap venue.venue)

theorem sampleSnaps_delivered :
    sampleSnaps = sampleArrivals.flatMap fun arrival =>
      arrival.delivered sampleReaders .bybit (Venue.normalizePair (sampleAdapters .bybit) "BTC-USDT" .bybit) := by
  decide +kernel

theorem sampleNames (venue : DepthVenue) : venue.Unambiguous (sampleAdapters venue) ["BTC-USDT"] := by
  have hpairs : ["BTC-USDT"] = ["BTC"].map (· ++ "-USDT") := by decide
  rw [hpairs]
  refine unambiguous_usdt venue _ plainAdapter ?_
  intro base hbase
  rw [List.mem_singleton.mp hbase]
  exact ⟨by decide, by simp⟩

theorem sampleSnaps_separated :
    ∀ p ∈ sampleSnaps.flatMap fun snap => (snap.call 0).prices,
      ∀ q ∈ sampleSnaps.flatMap fun snap => (snap.call 0).prices,
        p = q ∨ priceTolerance ≤ |p - q| := by
  decide +kernel

theorem sampleSnaps_refined :
    ∃ book, (Runs.run (arrive sampleReaders fun v => v.subscribeAll .insertionSort quietBot
          (sampleAdapters v) ["BTC-USDT"])
        ⟨createBooks (fun _ _ => 0) [.okx, .bybit] ["BTC-USDT"], ()⟩
        sampleArrivals).aggregator.books "BTC-USDT" .bybit = some book ∧
      Refines {p | ∃ snap ∈ sampleSnaps, p ∈ (snap.call 0).prices} book
        ((sampleSnaps.map fun snap => snap.call 0).foldl BookMap.apply {}) := by
  have hseparated : Separated {p | ∃ snap ∈ sampleSnaps, p ∈ (snap.call 0).prices} := by
    rintro p ⟨snap, hsnap, hp⟩ q ⟨snap', hsnap', hq⟩
    exact sampleSnaps_separated p (List.mem_flatMap.mpr ⟨snap, hsnap, hp⟩) q
      (List.mem_flatMap.mpr ⟨snap', hsnap', hq⟩)
  have hdistinct : ∀ snap ∈ sampleSnaps, (snap.call 0).Distinct := by
    intro snap hsnap
    simp only [sampleSnaps, List.mem_cons, List.not_mem_nil, or_false] at hsnap
    rcases hsnap with rfl | rfl
    · exact ⟨by decide +kernel, by decide +kernel⟩
    · trivial
  have hbybit : DepthVenue.bybit ∈ [DepthVenue.okx, .bybit] := by decide
  obtain ⟨book, hbook, hrefines⟩ := @feeds_refine_bookMap Unit .insertionSort quietBot sampleReaders
    sampleAdapters [.okx, .bybit] ["BTC-USDT"] (fun _ _ => 0) () sampleArrivals .bybit hbybit "BTC-USDT"
    (List.mem_singleton_self _) (sampleNames .bybit) (.inl fun _ _ _ => rfl) sampleSnaps
    sampleSnaps_delivered hseparated hdistinct
  -- the name of the exchange, before the run is compared
  rw [DepthVenue.exchange] at hbook
  exact ⟨book, hbook, hrefines⟩

def okxSnap : FeedSnapshot :=
  { exchange := .okx, pair := "BTC-USDT", bids := [⟨100.5, 2⟩], asks := [⟨101.5, 1⟩],
    sequenceId := 9, localTimestamp := 2 }

theorem okxSnap_held :
    ∃ book, (Runs.run (arrive sampleReaders fun v => v.subscribeAll .insertionSort quietBot
          (sampleAdapters v) ["BTC-USDT"])
        ⟨createBooks (fun _ _ => 0) [.okx, .bybit] ["BTC-USDT"], ()⟩
        sampleArrivals).aggregator.books "BTC-USDT" .okx = some book ∧ book.Holds okxSnap := by
  have hlast : (sampleArrivals.flatMap fun arrival =>
      arrival.delivered sampleReaders .okx (Venue.normalizePair (sampleAdapters .okx) "BTC-USDT" .okx)) =
        [] ++ [okxSnap] := by
    decide +kernel
  have hokx : DepthVenue.okx ∈ [DepthVenue.okx, .bybit] := by decide
  obtain ⟨book, hbook, hholds⟩ := @book_holds_last_snapshot Unit .insertionSort quietBot sampleReaders
    sampleAdapters [.okx, .bybit] ["BTC-USDT"] (fun _ _ => 0) () sampleArrivals .okx hokx (.inl rfl)
    "BTC-USDT" (List.mem_singleton_self _) (sampleNames .okx) (.inl fun _ _ _ => rfl) [] okxSnap hlast
  rw [DepthVenue.exchange] at hbook
  exact ⟨book, hbook, hholds⟩

end CryptoArbBot
