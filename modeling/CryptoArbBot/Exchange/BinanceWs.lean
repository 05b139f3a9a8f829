import CryptoArbBot.Common.Types
import CryptoArbBot.Exchange.Json
import CryptoArbBot.Library.ScopedLock
import CryptoArbBot.Library.StdAlgorithms

/-!
# Depth messages from Binance (exchange/binance/binance_ws.cpp)

`on_message` on the feed thread, with `mutex_` as that thread sees it. A callback
may do anything to the rest of the program but does not touch `BinanceWs`.
-/

namespace CryptoArbBot

abbrev OrderBookCallback (σ : Type) := OrderBookSnapshot → σ → Except Thrown Unit × σ

/-- `callbacks_`, in the order in which it is iterated. -/
structure BinanceWs (σ : Type) where
  callbacks : List (String × OrderBookCallback σ)

namespace BinanceWs

/-- The library code that decides what a message says: the JSON parser, `std::stod`,
which also throws on numbers out of range, `std::sort` and the clock. -/
structure Readers where
  parse : String → Except String Json
  stod : String → Except String ℚ
  sort : StdSort PriceLevel
  now : TimePoint

variable {σ : Type} (R : Readers)

def readLevel (level : Json) : Except String PriceLevel := do
  let price ← R.stod (← (← level.item 0).getString)
  let quantity ← R.stod (← (← level.item 1).getString)
  .ok { price, quantity }

/-- The loop over `j["bids"]` or `j["asks"]`. -/
def readLevels : List Json → Except String (List PriceLevel)
  | [] => .ok []
  | level :: levels =>
    if 2 ≤ level.size then do
      let l ← readLevel R level
      let rest ← readLevels levels
      .ok (if l.quantity > 0 then l :: rest else rest)
    else readLevels levels

def readSide (j : Json) (side : String) : Except String (List PriceLevel) :=
  match j.member? side with
  | some levels => readLevels R levels.elements
  | none => .ok []

/-- `parse_depth_snapshot` up to the lock. -/
def readSnapshot (j : Json) (symbol : String) : Except String OrderBookSnapshot := do
  let sequenceId ← j.valueAs Json.getUnsignedLongLong "lastUpdateId" 0
  let bids ← readSide R j "bids"
  let asks ← readSide R j "asks"
  .ok {
    exchange := .binance
    pair := symbol
    bids := R.sort.sort (fun a b => a.price > b.price) bids
    asks := R.sort.sort (fun a b => a.price < b.price) asks
    sequenceId
    localTimestamp := R.now }

def parseDepthSnapshot (ws : BinanceWs σ) (j : Json) (symbol : String) : MutexAct σ Unit :=
  .catchStd do
    let snap ← MutexAct.throws (readSnapshot R j symbol)
    .lockGuard <|
      match ws.callbacks.find? fun entry => entry.1 = symbol with
      | some (_, callback) => .outside (callback snap)
      | none => pure ()

def onMessage (ws : BinanceWs σ) (msg : String) : MutexAct σ Unit :=
  .catchStd do
    let j ← MutexAct.throws (R.parse msg)
    -- combined stream: {"stream":"btcusd@depth20@100ms","data":{...}}
    if j.contains "stream" then
      let stream ← MutexAct.throws ((j.member? "stream").getD .null).getString
      if "@depth".toList <:+: stream.toList then
        let symbol := String.ofList (stream.toList.takeWhile (· ≠ '@'))
        parseDepthSnapshot R ws ((j.member? "data").getD j) symbol
      else pure ()
    -- a single stream does not name the symbol: the first callback takes it
    else if j.contains "lastUpdateId" && j.contains "bids" then
      .lockGuard <|
        match ws.callbacks with
        | [] => pure ()
        | (symbol, _) :: _ => parseDepthSnapshot R ws j symbol
    else pure ()

/-! ### What can be read -/

def Reads {α : Type} (e : Except String α) : Prop := ∃ a, e = .ok a

theorem reads_ok {α : Type} (a : α) : Reads (.ok a : Except String α) := ⟨a, rfl⟩

theorem reads_bind {α β : Type} {e : Except String α} {f : α → Except String β} :
    Reads (e >>= f) ↔ ∃ a, e = .ok a ∧ Reads (f a) := by
  cases e with
  | error what => exact iff_of_false nofun nofun
  | ok a =>
    constructor
    · exact fun h => ⟨a, rfl, h⟩
    · intro h
      obtain ⟨a', heq, h⟩ := h
      cases heq
      exact h

theorem reads_getString {j : Json} : Reads j.getString ↔ ∃ text, j = .string text := by
  cases j <;> simp [Reads, Json.getString]

/-- A level of two or more entries begins with two texts of numbers. -/
def LevelReadable (level : Json) : Prop :=
  2 ≤ level.size → ∃ price quantity rest,
    level = .array (.string price :: .string quantity :: rest) ∧
      Reads (R.stod price) ∧ Reads (R.stod quantity)

theorem readLevel_iff {level : Json} (hsize : 2 ≤ level.size) :
    Reads (readLevel R level) ↔ LevelReadable R level := by
  have hreads : Reads (readLevel R level) ↔ ∃ first, level.item 0 = .ok first ∧
      ∃ price, first.getString = .ok price ∧ ∃ x, R.stod price = .ok x ∧
        ∃ second, level.item 1 = .ok second ∧ ∃ quantity, second.getString = .ok quantity ∧
          ∃ y, R.stod quantity = .ok y ∧ Reads (.ok (⟨x, y⟩ : PriceLevel)) := by
    simp only [readLevel, reads_bind]
  rw [hreads]
  constructor
  · rintro ⟨first, hfirst, price, hprice, x, hx, second, hsecond, quantity, hquantity, y, hy, _⟩ _
    match level, hsize with
    | .array (_ :: _ :: rest), _ =>
      cases hfirst
      cases hsecond
      obtain ⟨_, rfl⟩ := reads_getString.mp ⟨price, hprice⟩
      obtain ⟨_, rfl⟩ := reads_getString.mp ⟨quantity, hquantity⟩
      cases hprice
      cases hquantity
      exact ⟨price, quantity, rest, rfl, ⟨x, hx⟩, ⟨y, hy⟩⟩
    | .object _, _ => cases hfirst
  · intro h
    obtain ⟨price, quantity, rest, rfl, ⟨x, hx⟩, ⟨y, hy⟩⟩ := h hsize
    exact ⟨_, rfl, _, rfl, x, hx, _, rfl, _, rfl, y, hy, reads_ok _⟩

theorem readLevels_iff (levels : List Json) :
    Reads (readLevels R levels) ↔ ∀ level ∈ levels, LevelReadable R level := by
  induction levels with
  | nil => exact iff_of_true (reads_ok _) nofun
  | cons level levels ih =>
    rw [List.forall_mem_cons, ← ih, readLevels]
    by_cases hsize : 2 ≤ level.size
    · rw [if_pos hsize, ← readLevel_iff R hsize, reads_bind]
      constructor
      · intro h
        obtain ⟨l, hl, h⟩ := h
        obtain ⟨rest, hrest, _⟩ := reads_bind.mp h
        exact ⟨⟨l, hl⟩, ⟨rest, hrest⟩⟩
      · intro h
        obtain ⟨⟨l, hl⟩, ⟨rest, hrest⟩⟩ := h
        exact ⟨l, hl, reads_bind.mpr ⟨rest, hrest, reads_ok _⟩⟩
    · rw [if_neg hsize]
      exact ⟨fun h => ⟨fun h2 => absurd h2 hsize, h⟩, fun h => h.2⟩

def SideReadable (j : Json) (side : String) : Prop :=
  ∀ levels, j.member? side = some levels → ∀ level ∈ levels.elements, LevelReadable R level

theorem readSide_iff (j : Json) (side : String) :
    Reads (readSide R j side) ↔ SideReadable R j side := by
  unfold readSide SideReadable
  cases j.member? side with
  | none => exact iff_of_true (reads_ok _) nofun
  | some levels =>
    rw [readLevels_iff]
    exact ⟨fun h _ heq => Option.some.inj heq ▸ h, fun h => h levels rfl⟩

def isNumber : Json → Bool
  | .integer _ | .float _ | .boolean _ => true
  | .null | .string _ | .array _ | .object _ => false

/-- The id converts and so does every level. -/
structure SnapshotReadable (j : Json) : Prop where
  object : ∃ members, j = .object members
  sequenceId : ∀ v, j.member? "lastUpdateId" = some v → isNumber v
  bids : SideReadable R j "bids"
  asks : SideReadable R j "asks"

theorem reads_sequenceId (j : Json) :
    Reads (j.valueAs Json.getUnsignedLongLong "lastUpdateId" 0) ↔
      (∃ members, j = .object members) ∧
        ∀ v, j.member? "lastUpdateId" = some v → isNumber v := by
  cases j with
  | object members =>
    unfold Json.valueAs
    cases hid : Json.member? (.object members) "lastUpdateId" with
    | none => exact iff_of_true (reads_ok _) ⟨⟨members, rfl⟩, nofun⟩
    | some v => cases v <;> simp [Reads, Json.getUnsignedLongLong, isNumber]
  | _ => exact iff_of_false nofun fun h => nomatch h.1

theorem readSnapshot_iff (j : Json) (symbol : String) :
    Reads (readSnapshot R j symbol) ↔ SnapshotReadable R j := by
  simp only [readSnapshot, reads_bind]
  constructor
  · intro h
    obtain ⟨id, hid, bids, hbids, asks, hasks, _⟩ := h
    obtain ⟨hobject, hnumber⟩ := (reads_sequenceId j).mp ⟨id, hid⟩
    exact ⟨hobject, hnumber, (readSide_iff R j _).mp ⟨bids, hbids⟩,
      (readSide_iff R j _).mp ⟨asks, hasks⟩⟩
  · intro h
    obtain ⟨id, hid⟩ := (reads_sequenceId j).mpr ⟨h.object, h.sequenceId⟩
    obtain ⟨bids, hbids⟩ := (readSide_iff R j _).mpr h.bids
    obtain ⟨asks, hasks⟩ := (readSide_iff R j _).mpr h.asks
    exact ⟨id, hid, bids, hbids, asks, hasks, reads_ok _⟩

/-! ### The lock -/

section Lock
open MutexAct
variable (ws : BinanceWs σ)

theorem parseDepthSnapshot_balanced (j : Json) (symbol : String) :
    Balanced (parseDepthSnapshot R ws j symbol) :=
  ((balanced_throws _).bind fun _ => balanced_lockGuard _).catchStd

/-- The helper takes the lock itself, unless the message cannot be read. -/
theorem parseDepthSnapshot_free (j : Json) (symbol : String) (s : LockState σ) :
    Free (parseDepthSnapshot R ws j symbol) s ↔ s.held = false ∨ ¬ SnapshotReadable R j := by
  rw [parseDepthSnapshot, free_catchStd, free_throws_bind, ← readSnapshot_iff R j symbol]
  have hscope : ∀ snap, Free (lockGuard <|
      match ws.callbacks.find? fun entry => entry.1 = symbol with
      | some (_, callback) => outside (callback snap)
      | none => pure ()) s ↔ s.held = false := by
    intro snap
    rw [free_lockGuard, and_iff_left]
    split
    · exact free_outside _
    · exact free_pure _
  constructor
  · intro h
    by_cases hread : Reads (readSnapshot R j symbol)
    · obtain ⟨snap, hsnap⟩ := hread
      exact .inl ((hscope snap).mp (h snap hsnap))
    · exact .inr hread
  · intro h snap hsnap
    rcases h with hheld | hread
    · exact (hscope snap).mpr hheld
    · exact absurd ⟨snap, hsnap⟩ hread

/-- A message of the single-stream form that can be read, with a callback for it. -/
def SingleStream (msg : String) : Prop :=
  ∃ j, R.parse msg = .ok j ∧ ¬ j.contains "stream" ∧ j.contains "lastUpdateId" ∧
    j.contains "bids" ∧ ws.callbacks ≠ [] ∧ SnapshotReadable R j

theorem onMessage_balanced (msg : String) : Balanced (onMessage R ws msg) := by
  refine ((balanced_throws _).bind fun j => ?_).catchStd
  split
  · refine (balanced_throws _).bind fun stream => ?_
    split
    · exact parseDepthSnapshot_balanced R ws _ _
    · exact balanced_pure _
  · split
    · exact balanced_lockGuard _
    · exact balanced_pure _

theorem onMessage_free_iff (msg : String) (world : σ) :
    Free (onMessage R ws msg) ⟨false, world⟩ ↔ ¬ SingleStream R ws msg := by
  rw [onMessage, free_catchStd, free_throws_bind]
  cases hparse : R.parse msg with
  | error what =>
    refine iff_of_true nofun ?_
    rintro ⟨j, hj, _⟩
    rw [hparse] at hj
    cases hj
  | ok j =>
    have hmsg : SingleStream R ws msg ↔ ¬ j.contains "stream" ∧ j.contains "lastUpdateId" ∧
        j.contains "bids" ∧ ws.callbacks ≠ [] ∧ SnapshotReadable R j := by
      unfold SingleStream
      rw [hparse]
      exact ⟨fun ⟨_, heq, h⟩ => Except.ok.inj heq ▸ h, fun h => ⟨j, rfl, h⟩⟩
    rw [hmsg]
    suffices hj : Free _ ⟨false, world⟩ ↔ _ from
      ⟨fun h => hj.mp (h j rfl), fun h _ heq => Except.ok.inj heq ▸ hj.mpr h⟩
    by_cases hstream : j.contains "stream"
    · -- a combined stream reaches the helper without the lock
      rw [if_pos hstream, free_throws_bind]
      refine iff_of_true ?_ fun h => h.1 hstream
      intro stream _
      split
      · exact (parseDepthSnapshot_free R ws _ _ _).mpr (.inl rfl)
      · exact free_pure _
    · rw [if_neg hstream]
      by_cases hsingle : (j.contains "lastUpdateId" && j.contains "bids") = true
      · rw [if_pos hsingle, free_lockGuard]
        obtain ⟨hid, hbids⟩ := Bool.and_eq_true_iff.mp hsingle
        match hcallbacks : ws.callbacks with
        | [] => exact iff_of_true ⟨rfl, free_pure _⟩ fun h => h.2.2.2.1 rfl
        | (symbol, _) :: _ =>
          -- here it has the lock already
          rw [parseDepthSnapshot_free]
          constructor
          · intro h hall
            exact h.2.elim nofun fun hread => hread hall.2.2.2.2
          · intro h
            exact ⟨rfl, .inr fun hread => h ⟨hstream, hid, hbids, nofun, hread⟩⟩
      · rw [if_neg hsingle]
        refine iff_of_true (free_pure _) fun h => hsingle ?_
        rw [h.2.1, h.2.2.1, Bool.and_self]

/-- The feed thread never waits for itself and ends without the lock exactly on
the messages that do not take the single-stream form. -/
theorem onMessage_released_iff (msg : String) (world : σ) :
    (Free (onMessage R ws msg) ⟨false, world⟩ ∧
        (onMessage R ws msg ⟨false, world⟩).2.held = false) ↔ ¬ SingleStream R ws msg := by
  rw [← onMessage_free_iff R ws msg world]
  exact ⟨fun h => h.1, fun h => ⟨h, onMessage_balanced R ws msg _ h⟩⟩

def singleStreamBook : String :=
  "\x7b\"lastUpdateId\":160,\"bids\":[[\"0.0024\",\"10\"]],\"asks\":[]\x7d"

def bookReaders : Readers where
  parse text :=
    if text = singleStreamBook then
      .ok (.object [("asks", .array []),
        ("bids", .array [.array [.string "0.0024", .string "10"]]), ("lastUpdateId", .integer 160)])
    else .error "[json.exception.parse_error.101]"
  stod := CryptoArbBot.stod
  sort := .insertionSort
  now := 0

theorem singleStream_relocks :
    ¬ (Free (onMessage bookReaders ⟨[("btcusdt", fun _ world => (.ok (), world))]⟩ singleStreamBook)
        ⟨false, ()⟩ ∧
      (onMessage bookReaders ⟨[("btcusdt", fun _ world => (.ok (), world))]⟩ singleStreamBook
        ⟨false, ()⟩).2.held = false) :=
  fun h => h.1 (by decide +kernel)

end Lock

end BinanceWs

end CryptoArbBot
