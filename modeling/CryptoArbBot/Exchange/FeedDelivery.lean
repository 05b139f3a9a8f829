import CryptoArbBot.Exchange.FeedMessages

/-!
# What a depth message does

Whatever its text, a message comes down to a list of items, each a frame that is
sent back or a snapshot that is handed over. `on_message` runs them in order until
a callback throws, never waits for its own lock and leaves it free.
-/

namespace CryptoArbBot

inductive FeedItem where
  | send (frame : Frame)
  | deliver (snap : FeedSnapshot)

namespace FeedItem

def snapshot? : FeedItem → Option FeedSnapshot
  | .send _ => none
  | .deliver snap => some snap

end FeedItem

variable {σ : Type} (R : FeedReaders)

/-! ### What a message says -/

def itemsOf : Except String (Option FeedSnapshot) → List FeedItem
  | .ok (some snap) => [.deliver snap]
  | _ => []

namespace BybitWs

def items (msg : String) : List FeedItem :=
  match R.parse msg with
  | .ok j =>
    if j.isText "op" "ping" then [.send (.dump (Json.ofInitializerList [("op", .string "pong")]))]
    else itemsOf (readMessage R j)
  | .error _ => []

end BybitWs

namespace OkxWs

/-- The entries before the first one that cannot be read. -/
def readEntries (instId : String) : List Json → List FeedSnapshot
  | [] => []
  | data :: entries =>
    match readSnapshot R instId data with
    | .ok snap => snap :: readEntries instId entries
    | .error _ => []

def items (msg : String) : List FeedItem :=
  match R.parse msg with
  | .ok j =>
    match readMessage j with
    | .ok (some (instId, entries)) => (readEntries R instId entries).map .deliver
    | _ => []
  | .error _ => []

end OkxWs

namespace MexcWs

def items (msg : String) : List FeedItem :=
  if msg = "ping" then [.send (.text "pong")]
  else
    match R.parse msg with
    | .ok j =>
      match j.member? "ping" with
      | some value => [.send (.dump (Json.ofInitializerList [("pong", value)]))]
      | none => itemsOf (readMessage R j)
    | .error _ => []

end MexcWs

namespace GateioWs

def items (msg : String) : List FeedItem :=
  match R.parse msg with
  | .ok j => itemsOf (readMessage R j)
  | .error _ => []

end GateioWs

def DepthVenue.items (msg : String) : DepthVenue → List FeedItem
  | .bybit => BybitWs.items R msg
  | .okx => OkxWs.items R msg
  | .mexc => MexcWs.items R msg
  | .gateio => GateioWs.items R msg

def DepthVenue.snapshots (venue : DepthVenue) (msg : String) : List FeedSnapshot :=
  (venue.items R msg).filterMap FeedItem.snapshot?

/-! ### Running the items -/

namespace DepthWs
variable (ws : DepthWs σ)

def call (snap : FeedSnapshot) (world : σ) : Except Thrown Unit × σ :=
  match ws.callbacks.find? fun entry => entry.1 = snap.pair with
  | some (_, callback) => callback snap world
  | none => (.ok (), world)

def runItem (world : σ) : FeedItem → Except Thrown Unit × σ
  | .send frame => (.ok (), ws.send frame world)
  | .deliver snap => ws.call snap world

def runItems (world : σ) : List FeedItem → Except Thrown Unit × σ
  | [] => (.ok (), world)
  | item :: items =>
    match ws.runItem world item with
    | (.ok (), world') => runItems world' items
    | (.error t, world') => (.error t, world')

/-- The action runs the items and leaves the lock free. It ends with what a callback
threw; where none did it may still have met something it cannot read. -/
def Performs (act : MutexAct σ Unit) (items : List FeedItem) : Prop :=
  ∀ world, (act ⟨false, world⟩).2 = ⟨false, (ws.runItems world items).2⟩ ∧
    match (ws.runItems world items).1 with
    | .error t => (act ⟨false, world⟩).1 = .error (.thrown t)
    | .ok () => (act ⟨false, world⟩).1 = .ok () ∨
        ∃ what, (act ⟨false, world⟩).1 = .error (.thrown (.exception what))

variable {ws}

theorem performs_pure : ws.Performs (pure ()) [] := fun _ => ⟨rfl, .inl rfl⟩

theorem performs_throws {α : Type} {e : Except String α} {f : α → MutexAct σ Unit}
    {items : List FeedItem} (hok : ∀ a, e = .ok a → ws.Performs (f a) items)
    (herror : ∀ what, e = .error what → items = []) :
    ws.Performs (MutexAct.throws e >>= f) items := by
  cases e with
  | ok a => exact hok a rfl
  | error what =>
    rw [herror what rfl]
    exact fun _ => ⟨rfl, .inr ⟨what, rfl⟩⟩

theorem performs_sendFrame (frame : Frame) : ws.Performs (ws.sendFrame frame) [.send frame] :=
  fun _ => ⟨rfl, .inl rfl⟩

theorem handOver_eq (snap : FeedSnapshot) (world : σ) :
    ws.handOver snap ⟨false, world⟩ =
      ((ws.call snap world).1.mapError Escape.thrown, ⟨false, (ws.call snap world).2⟩) := by
  unfold handOver call MutexAct.lockGuard
  cases ws.callbacks.find? fun entry => entry.1 = snap.pair with
  | none => rfl
  | some entry =>
    rcases hcall : entry.2 snap world with ⟨_ | _, world'⟩
    all_goals simp [MutexAct.outside, hcall, Except.mapError]

/-- The first item, then the rest of the action on what it left. -/
theorem performs_handOver {snap : FeedSnapshot} {act : MutexAct σ Unit} {items : List FeedItem}
    (h : ws.Performs act items) :
    ws.Performs (ws.handOver snap >>= fun _ => act) (.deliver snap :: items) := by
  intro world
  rw [MutexAct.bind_apply, handOver_eq, runItems, runItem]
  rcases ws.call snap world with ⟨_ | _, world'⟩
  · exact ⟨rfl, rfl⟩
  · exact h world'

theorem performs_deliver (snap : FeedSnapshot) : ws.Performs (ws.handOver snap) [.deliver snap] := by
  intro world
  rw [handOver_eq, runItems, runItem]
  rcases ws.call snap world with ⟨_ | _, world'⟩
  · exact ⟨rfl, rfl⟩
  · exact ⟨rfl, .inl rfl⟩

/-- The handler of `on_message` ends every `std::exception`. -/
def swallowed : Except Thrown Unit → Except Escape Unit
  | .error .other => .error (.thrown .other)
  | _ => .ok ()

theorem Performs.catchStd {act : MutexAct σ Unit} {items : List FeedItem}
    (h : ws.Performs act items) (world : σ) :
    MutexAct.catchStd act ⟨false, world⟩ =
      (swallowed (ws.runItems world items).1, ⟨false, (ws.runItems world items).2⟩) := by
  obtain ⟨hstate, houtcome⟩ := h world
  unfold MutexAct.catchStd
  rcases hact : act ⟨false, world⟩ with ⟨outcome, state⟩
  rw [hact] at hstate houtcome
  dsimp only at hstate houtcome
  subst hstate
  rcases hrun : (ws.runItems world items).1 with t | _
  · rw [hrun] at houtcome
    subst houtcome
    cases t <;> rfl
  · rw [hrun] at houtcome
    rcases houtcome with rfl | ⟨what, rfl⟩
    · rfl
    · rfl

end DepthWs

/-! ### The four handlers -/

section Handlers
open DepthWs
variable (ws : DepthWs σ)

theorem performs_read (e : Except String (Option FeedSnapshot)) :
    ws.Performs (MutexAct.throws e >>= fun snap =>
      match snap with
      | some snap => ws.handOver snap
      | none => pure ()) (itemsOf e) := by
  refine performs_throws ?_ ?_
  · rintro (_ | snap) rfl
    · exact performs_pure
    · exact performs_deliver snap
  · rintro what rfl
    rfl

theorem performs_entries (instId : String) (entries : List Json) :
    ws.Performs (OkxWs.handOverEntries R ws instId entries)
      ((OkxWs.readEntries R instId entries).map .deliver) := by
  induction entries with
  | nil => exact performs_pure
  | cons data entries ih =>
    refine performs_throws ?_ ?_
    · intro snap hread
      rw [OkxWs.readEntries, hread]
      exact performs_handOver ih
    · intro what hread
      rw [OkxWs.readEntries, hread]
      rfl

theorem bybit_performs (msg : String) :
    ∃ act, BybitWs.onMessage R ws msg = .catchStd act ∧ ws.Performs act (BybitWs.items R msg) := by
  refine ⟨_, rfl, performs_throws ?_ ?_⟩
  · intro j hparse
    rw [BybitWs.items, hparse]
    dsimp only
    split
    · exact performs_sendFrame _
    · exact performs_read ws _
  · intro what hparse
    rw [BybitWs.items, hparse]

theorem okx_performs (msg : String) :
    ∃ act, OkxWs.onMessage R ws msg = .catchStd act ∧ ws.Performs act (OkxWs.items R msg) := by
  refine ⟨_, rfl, performs_throws ?_ ?_⟩
  · intro j hparse
    rw [OkxWs.items, hparse]
    refine performs_throws ?_ ?_
    · rintro (_ | ⟨instId, entries⟩) hread
      · simpa only [hread] using performs_pure
      · simpa only [hread] using performs_entries R ws instId entries
    · intro what hread
      simp only [hread]
  · intro what hparse
    rw [OkxWs.items, hparse]

theorem mexc_performs (msg : String) :
    ∃ act, MexcWs.onMessage R ws msg = .catchStd act ∧ ws.Performs act (MexcWs.items R msg) := by
  refine ⟨_, rfl, ?_⟩
  unfold MexcWs.items
  by_cases hping : msg = "ping"
  · rw [if_pos hping, if_pos hping]
    exact performs_sendFrame _
  · rw [if_neg hping, if_neg hping]
    refine performs_throws ?_ ?_
    · intro j hparse
      rw [hparse]
      dsimp only
      cases j.member? "ping" with
      | some value => exact performs_sendFrame _
      | none => exact performs_read ws _
    · intro what hparse
      rw [hparse]

theorem gateio_performs (msg : String) :
    ∃ act, GateioWs.onMessage R ws msg = .catchStd act ∧ ws.Performs act (GateioWs.items R msg) := by
  refine ⟨_, rfl, performs_throws ?_ ?_⟩
  · intro j hparse
    rw [GateioWs.items, hparse]
    exact performs_read ws _
  · intro what hparse
    rw [GateioWs.items, hparse]

/-- Every message is handled by running its items; the lock is never taken twice and
is free at the end. -/
theorem DepthVenue.onMessage_eq (venue : DepthVenue) (msg : String) (world : σ) :
    venue.onMessage R ws msg ⟨false, world⟩ =
      (swallowed (ws.runItems world (venue.items R msg)).1,
        ⟨false, (ws.runItems world (venue.items R msg)).2⟩) := by
  have hhandler : ∃ act, venue.onMessage R ws msg = .catchStd act ∧
      ws.Performs act (venue.items R msg) := by
    cases venue with
    | bybit => exact bybit_performs R ws msg
    | okx => exact okx_performs R ws msg
    | mexc => exact mexc_performs R ws msg
    | gateio => exact gateio_performs R ws msg
  obtain ⟨act, hact, hperforms⟩ := hhandler
  rw [hact]
  exact hperforms.catchStd world

end Handlers

/-! ### What is delivered -/

def DepthVenue.exchange : DepthVenue → Exchange
  | .bybit => .bybit
  | .okx => .okx
  | .mexc => .mexc
  | .gateio => .gateio

/-- A snapshot of a feed carries the feed's exchange, and unless it is a delta its
sides are sorted best first. Bybit alone leaves empty levels in it. -/
structure FeedSnapshot.WellFormed (venue : DepthVenue) (snap : FeedSnapshot) : Prop where
  exchange : snap.exchange = venue.exchange
  whole : venue = .okx ∨ venue = .mexc → snap.isDelta = false
  bids : snap.isDelta = false → snap.bids.Pairwise fun a b => b.price ≤ a.price
  asks : snap.isDelta = false → snap.asks.Pairwise fun a b => a.price ≤ b.price
  positive : snap.isDelta = false → venue ≠ .bybit → ∀ l ∈ snap.bids ++ snap.asks, 0 < l.quantity

theorem bind_eq_ok {α β : Type} {e : Except String α} {f : α → Except String β} {b : β} :
    (e >>= f) = .ok b ↔ ∃ a, e = .ok a ∧ f a = .ok b := by
  cases e with
  | ok a => exact ⟨fun h => ⟨a, rfl, h⟩, fun ⟨_, heq, h⟩ => Except.ok.inj heq ▸ h⟩
  | error what => exact iff_of_false nofun nofun

theorem ifPositive_pos {l l' : PriceLevel} (h : ifPositive l = some l') : 0 < l'.quantity := by
  unfold ifPositive at h
  split at h
  next hpos => exact Option.some.inj h ▸ hpos
  next => cases h

def PositiveReader (read : Json → Except String (Option PriceLevel)) : Prop :=
  ∀ level l, read level = .ok (some l) → 0 < l.quantity

section Positive

variable {read : Json → Except String (Option PriceLevel)}

theorem readLevelsWith_pos (hread : PositiveReader read) {levels : List Json} {ls : List PriceLevel}
    (h : readLevelsWith read levels = .ok ls) : ∀ l ∈ ls, 0 < l.quantity := by
  induction levels generalizing ls with
  | nil =>
    cases h
    exact nofun
  | cons level levels ih =>
    obtain ⟨l, hl, h⟩ := bind_eq_ok.mp h
    obtain ⟨rest, hrest, h⟩ := bind_eq_ok.mp h
    cases h
    intro l' hl'
    rcases List.mem_append.mp hl' with hfirst | hlater
    · rw [Option.mem_toList.mp hfirst] at hl
      exact hread level l' hl
    · exact ih hrest l' hlater

theorem readSideWith_pos (hread : PositiveReader read) {data : Json} {side : String}
    {ls : List PriceLevel} (h : readSideWith read data side = .ok ls) : ∀ l ∈ ls, 0 < l.quantity := by
  unfold readSideWith at h
  split at h
  · exact readLevelsWith_pos hread h
  · cases h
    exact nofun

end Positive

theorem positive_of_map {e : Except String PriceLevel} {l : PriceLevel}
    (h : (e >>= fun l => .ok (ifPositive l)) = .ok (some l)) : 0 < l.quantity := by
  obtain ⟨_, _, h⟩ := bind_eq_ok.mp h
  exact ifPositive_pos (Except.ok.inj h)

theorem okx_positive : PositiveReader (OkxWs.readLevel R) := by
  intro level l h
  unfold OkxWs.readLevel at h
  split at h
  · exact positive_of_map h
  · cases h

theorem mexc_positive : PositiveReader (MexcWs.readLevel R) := by
  intro level l h
  unfold MexcWs.readLevel at h
  split at h
  · obtain ⟨_, _, h⟩ := bind_eq_ok.mp h
    obtain ⟨_, _, h⟩ := bind_eq_ok.mp h
    obtain ⟨_, _, h⟩ := bind_eq_ok.mp h
    obtain ⟨_, _, h⟩ := bind_eq_ok.mp h
    exact ifPositive_pos (Except.ok.inj h)
  · split at h
    · exact positive_of_map h
    · cases h

theorem gateio_positive : PositiveReader (GateioWs.readLevel R false) := by
  intro level l h
  unfold GateioWs.readLevel at h
  split at h
  · exact positive_of_map h
  · cases h

theorem sorted_descending (std : StdSort PriceLevel) (levels : List PriceLevel) :
    (std.sort (fun a b => a.price > b.price) levels).Pairwise fun a b => b.price ≤ a.price := by
  refine (std.sorted _ levels (strictWeak_key fun l => OrderDual.toDual l.price)).imp ?_
  intro a b hab
  exact not_lt.mp (of_decide_eq_false hab)

theorem sorted_ascending (std : StdSort PriceLevel) (levels : List PriceLevel) :
    (std.sort (fun a b => a.price < b.price) levels).Pairwise fun a b => a.price ≤ b.price := by
  refine (std.sorted _ levels (strictWeak_key fun l => l.price)).imp ?_
  intro a b hab
  exact not_lt.mp (of_decide_eq_false hab)

theorem FeedReaders.pos_of_sorted {bids asks : List PriceLevel} (hbids : ∀ l ∈ bids, 0 < l.quantity)
    (hasks : ∀ l ∈ asks, 0 < l.quantity) : ∀ l ∈ R.sortBids bids ++ R.sortAsks asks, 0 < l.quantity := by
  intro l hl
  rcases List.mem_append.mp hl with hl | hl
  · exact hbids l ((R.sort.perm _ bids).mem_iff.mp hl)
  · exact hasks l ((R.sort.perm _ asks).mem_iff.mp hl)

theorem bybit_wellFormed {data : Json} {symbol : String} {isDelta : Bool} {snap : FeedSnapshot}
    (h : BybitWs.readSnapshot R data symbol isDelta = .ok snap) : snap.WellFormed .bybit := by
  obtain ⟨bids, _, h⟩ := bind_eq_ok.mp h
  obtain ⟨asks, _, h⟩ := bind_eq_ok.mp h
  obtain ⟨sequenceId, _, h⟩ := bind_eq_ok.mp h
  cases h
  refine ⟨rfl, nofun, ?_, ?_, fun _ hne => absurd rfl hne⟩
  · rintro rfl
    exact sorted_descending R.sort bids
  · rintro rfl
    exact sorted_ascending R.sort asks

theorem okx_wellFormed {instId : String} {data : Json} {snap : FeedSnapshot}
    (h : OkxWs.readSnapshot R instId data = .ok snap) : snap.WellFormed .okx := by
  obtain ⟨bids, hbids, h⟩ := bind_eq_ok.mp h
  obtain ⟨asks, hasks, h⟩ := bind_eq_ok.mp h
  obtain ⟨sequenceId, _, h⟩ := bind_eq_ok.mp h
  cases h
  exact ⟨rfl, fun _ => rfl, fun _ => sorted_descending R.sort bids, fun _ => sorted_ascending R.sort asks,
    fun _ _ => R.pos_of_sorted (readSideWith_pos (okx_positive R) hbids)
      (readSideWith_pos (okx_positive R) hasks)⟩

theorem mexc_wellFormed {data : Json} {symbol : String} {snap : FeedSnapshot}
    (h : MexcWs.readSnapshot R data symbol = .ok snap) : snap.WellFormed .mexc := by
  obtain ⟨bids, hbids, h⟩ := bind_eq_ok.mp h
  obtain ⟨asks, hasks, h⟩ := bind_eq_ok.mp h
  cases h
  exact ⟨rfl, fun _ => rfl, fun _ => sorted_descending R.sort bids, fun _ => sorted_ascending R.sort asks,
    fun _ _ => R.pos_of_sorted (readSideWith_pos (mexc_positive R) hbids)
      (readSideWith_pos (mexc_positive R) hasks)⟩

theorem gateio_wellFormed {result : Json} {currencyPair : String} {isDelta : Bool}
    {snap : FeedSnapshot} (h : GateioWs.readSnapshot R result currencyPair isDelta = .ok snap) :
    snap.WellFormed .gateio := by
  obtain ⟨bids, hbids, h⟩ := bind_eq_ok.mp h
  obtain ⟨asks, hasks, h⟩ := bind_eq_ok.mp h
  obtain ⟨sequenceId, _, h⟩ := bind_eq_ok.mp h
  cases h
  refine ⟨rfl, nofun, fun _ => sorted_descending R.sort bids, fun _ => sorted_ascending R.sort asks, ?_⟩
  rintro rfl _
  exact R.pos_of_sorted (readSideWith_pos (gateio_positive R) hbids)
    (readSideWith_pos (gateio_positive R) hasks)

/-- A property of every snapshot that a message can be read as. -/
theorem forall_itemsOf {P : FeedSnapshot → Prop} {e : Except String (Option FeedSnapshot)}
    (h : ∀ snap, e = .ok (some snap) → P snap) :
    ∀ snap ∈ (itemsOf e).filterMap FeedItem.snapshot?, P snap := by
  intro snap hsnap
  unfold itemsOf at hsnap
  split at hsnap
  · have hlast : snap = _ := List.mem_singleton.mp hsnap
    subst hlast
    exact h snap rfl
  · cases hsnap

theorem bybit_readMessage {j : Json} {snap : FeedSnapshot}
    (h : BybitWs.readMessage R j = .ok (some snap)) : snap.WellFormed .bybit := by
  unfold BybitWs.readMessage at h
  split at h
  · cases h
  · obtain ⟨topic, _, h⟩ := bind_eq_ok.mp h
    dsimp only at h
    split at h
    · obtain ⟨msgType, _, h⟩ := bind_eq_ok.mp h
      obtain ⟨_, hsnap, h⟩ := bind_eq_ok.mp h
      cases h
      exact bybit_wellFormed R hsnap
    · cases h

theorem mexc_readMessage {j : Json} {snap : FeedSnapshot}
    (h : MexcWs.readMessage R j = .ok (some snap)) : snap.WellFormed .mexc := by
  unfold MexcWs.readMessage at h
  split at h
  · cases h
  · obtain ⟨channel, _, h⟩ := bind_eq_ok.mp h
    split at h
    · cases h
    · obtain ⟨_, hsnap, h⟩ := bind_eq_ok.mp h
      cases h
      exact mexc_wellFormed R hsnap

theorem gateio_readMessage {j : Json} {snap : FeedSnapshot}
    (h : GateioWs.readMessage R j = .ok (some snap)) : snap.WellFormed .gateio := by
  unfold GateioWs.readMessage at h
  split at h
  · cases h
  · obtain ⟨channel, _, h⟩ := bind_eq_ok.mp h
    obtain ⟨event, _, h⟩ := bind_eq_ok.mp h
    dsimp only at h
    split at h
    · cases h
    · split at h
      · cases h
      · split at h
        · obtain ⟨currencyPair, _, h⟩ := bind_eq_ok.mp h
          obtain ⟨_, hsnap, h⟩ := bind_eq_ok.mp h
          cases h
          exact gateio_wellFormed R hsnap
        · split at h
          · obtain ⟨currencyPair, _, h⟩ := bind_eq_ok.mp h
            obtain ⟨_, hsnap, h⟩ := bind_eq_ok.mp h
            cases h
            exact gateio_wellFormed R hsnap
          · cases h

theorem okx_readEntries {instId : String} (entries : List Json) :
    ∀ snap ∈ OkxWs.readEntries R instId entries, snap.WellFormed .okx ∧ snap.pair = instId := by
  induction entries with
  | nil => exact nofun
  | cons data entries ih =>
    intro snap hsnap
    unfold OkxWs.readEntries at hsnap
    split at hsnap
    next first hread =>
      rcases List.mem_cons.mp hsnap with rfl | hlater
      · refine ⟨okx_wellFormed R hread, ?_⟩
        obtain ⟨_, _, hread⟩ := bind_eq_ok.mp hread
        obtain ⟨_, _, hread⟩ := bind_eq_ok.mp hread
        obtain ⟨_, _, hread⟩ := bind_eq_ok.mp hread
        cases hread
        rfl
      · exact ih snap hlater
    next => cases hsnap

theorem bybit_items (msg : String) :
    ∀ snap ∈ (BybitWs.items R msg).filterMap FeedItem.snapshot?, snap.WellFormed .bybit := by
  unfold BybitWs.items
  cases R.parse msg with
  | error what => exact nofun
  | ok j =>
    dsimp only
    split
    · simp [FeedItem.snapshot?]
    · exact forall_itemsOf fun snap => bybit_readMessage R

theorem okx_items (msg : String) :
    ∀ snap ∈ (OkxWs.items R msg).filterMap FeedItem.snapshot?, snap.WellFormed .okx := by
  unfold OkxWs.items
  cases R.parse msg with
  | error what => exact nofun
  | ok j =>
    dsimp only
    split
    next instId entries hread =>
      intro snap hsnap
      have hentry : snap ∈ OkxWs.readEntries R instId entries := by
        simpa [List.filterMap_map, Function.comp_def, FeedItem.snapshot?] using hsnap
      exact (okx_readEntries R entries snap hentry).1
    next => exact nofun

theorem mexc_items (msg : String) :
    ∀ snap ∈ (MexcWs.items R msg).filterMap FeedItem.snapshot?, snap.WellFormed .mexc := by
  unfold MexcWs.items
  split
  · simp [FeedItem.snapshot?]
  · cases R.parse msg with
    | error what => exact nofun
    | ok j =>
      dsimp only
      cases j.member? "ping" with
      | some value => simp [FeedItem.snapshot?]
      | none => exact forall_itemsOf fun snap => mexc_readMessage R

theorem gateio_items (msg : String) :
    ∀ snap ∈ (GateioWs.items R msg).filterMap FeedItem.snapshot?, snap.WellFormed .gateio := by
  unfold GateioWs.items
  cases R.parse msg with
  | error what => exact nofun
  | ok j => exact forall_itemsOf fun snap => gateio_readMessage R

theorem DepthVenue.snapshots_wellFormed (venue : DepthVenue) (msg : String) :
    ∀ snap ∈ venue.snapshots R msg, snap.WellFormed venue := by
  cases venue with
  | bybit => exact bybit_items R msg
  | okx => exact okx_items R msg
  | mexc => exact mexc_items R msg
  | gateio => exact gateio_items R msg

end CryptoArbBot
