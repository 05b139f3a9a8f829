import CryptoArbBot.Library.Interleaving
import CryptoArbBot.OrderBook.Aggregator

/-!
# The aggregator between threads (orderbook/order_book_aggregator.cpp)

`get_or_create_book` looks under the shared lock and, where it finds nothing, looks
again under the exclusive one. `get_pair_snapshots` collects pointers under the
shared lock and reads the books outside of it. A section under the lock, the reading
of one book and a writer call are one step each.
-/

namespace CryptoArbBot
open Interleaving

/-! ### The two methods -/

/-- `books_` and the books it points to; a pointer is an index. -/
structure AggregatorMemory where
  slots : String → Exchange → Option ℕ := fun _ _ => none
  heap : List OrderBook := []
  now : TimePoint := 0

inductive AggregatorRequest where
  | getOrCreateBook (exch : Exchange) (pair : String)
  | getPairSnapshots (pair : String) (depth : ℕ)

inductive AggregatorCall where
  -- `get_or_create_book`
  | check (exch : Exchange) (pair : String)
  | create (exch : Exchange) (pair : String)
  | returned (exch : Exchange) (pair : String) (ptr : ℕ)
  -- `get_pair_snapshots`; it is done when no pointer is left
  | collect (pair : String) (depth : ℕ)
  | read (pair : String) (depth : ℕ) (ptrs : List ℕ) (snapshots : List OrderBookSnapshot)

inductive AggregatorOp where
  | clock (now : TimePoint)
  /-- A writer call of a thread that has the reference. -/
  | write (ptr : ℕ) (call : BookCall)

namespace AggregatorMemory

def makeUnique (m : AggregatorMemory) (exch : Exchange) (pair : String) : AggregatorMemory :=
  { m with
    slots := fun pair' exch' =>
      if pair' = pair ∧ exch' = exch then some m.heap.length else m.slots pair' exch'
    heap := m.heap ++ [.new exch pair m.now] }

def advance (m : AggregatorMemory) : AggregatorCall → AggregatorMemory × AggregatorCall
  | .check exch pair =>
    match m.slots pair exch with
    | some ptr => (m, .returned exch pair ptr)
    | none => (m, .create exch pair)
  | .create exch pair =>
    match m.slots pair exch with
    | some ptr => (m, .returned exch pair ptr)
    | none => (m.makeUnique exch pair, .returned exch pair m.heap.length)
  | .returned exch pair ptr => (m, .returned exch pair ptr)
  | .collect pair depth => (m, .read pair depth (Exchange.ids.filterMap (m.slots pair)) [])
  | .read pair depth [] snapshots => (m, .read pair depth [] snapshots)
  | .read pair depth (ptr :: ptrs) snapshots =>
    let snap := m.heap[ptr]?.bind fun book => book.snapshot depth
    (m, .read pair depth ptrs (snapshots ++ snap.toList))

def happens (std : StdSort PriceLevel) (m : AggregatorMemory) : AggregatorOp → AggregatorMemory
  | .clock now => { m with now }
  | .write ptr call => { m with heap := m.heap.modify ptr fun book => book.apply std call }

end AggregatorMemory

def aggregatorProgram (std : StdSort PriceLevel) :
    Interleaving.Program AggregatorMemory AggregatorRequest AggregatorCall AggregatorOp where
  fresh
    | .getOrCreateBook exch pair => .check exch pair
    | .getPairSnapshots pair depth => .collect pair depth
  advance := AggregatorMemory.advance
  atomic := AggregatorMemory.happens std

/-! ### One book for a slot -/

namespace AggregatorMemory
variable {m m' : AggregatorMemory} (std : StdSort PriceLevel)

/-- The exchange and the pair of the book that a pointer leads to. -/
def owner (m : AggregatorMemory) (ptr : ℕ) : Option (Exchange × String) :=
  m.heap[ptr]?.map fun book => (book.exchange, book.pair)

/-- The slots and the books correspond to each other. -/
structure Keyed (m : AggregatorMemory) : Prop where
  slot : ∀ pair exch ptr, m.slots pair exch = some ptr ↔ m.owner ptr = some (exch, pair)
  mirrored : ∀ book ∈ m.heap, book.Mirrored

/-- Pointers stay where they are and what they lead to stays the same book. -/
structure Extends (m m' : AggregatorMemory) : Prop where
  slots : ∀ pair exch ptr, m.slots pair exch = some ptr → m'.slots pair exch = some ptr
  owner : ∀ ptr key, m.owner ptr = some key → m'.owner ptr = some key

theorem Extends.refl (m : AggregatorMemory) : m.Extends m := ⟨fun _ _ _ h => h, fun _ _ h => h⟩

theorem keyed_empty : Keyed {} := ⟨fun _ _ _ => by simp [owner], nofun⟩

theorem owner_makeUnique (m : AggregatorMemory) (exch : Exchange) (pair : String) (ptr : ℕ) :
    (m.makeUnique exch pair).owner ptr =
      if ptr = m.heap.length then some (exch, pair) else m.owner ptr := by
  unfold owner makeUnique
  rcases Nat.lt_trichotomy ptr m.heap.length with hlt | rfl | hgt
  · rw [List.getElem?_append_left hlt, if_neg (by omega)]
  · simp [OrderBook.new]
  · rw [List.getElem?_eq_none (by simp; omega), if_neg (by omega), List.getElem?_eq_none (by omega)]

theorem owner_lt {ptr : ℕ} {key : Exchange × String} (h : m.owner ptr = some key) :
    ptr < m.heap.length := by
  obtain ⟨book, hbook, _⟩ := Option.map_eq_some_iff.mp h
  exact (List.getElem?_eq_some_iff.mp hbook).1

theorem keyed_makeUnique (h : m.Keyed) {exch : Exchange} {pair : String}
    (hfree : m.slots pair exch = none) : (m.makeUnique exch pair).Keyed := by
  constructor
  case slot =>
    intro pair' exch' ptr
    rw [owner_makeUnique]
    unfold makeUnique
    dsimp only
    by_cases hkey : pair' = pair ∧ exch' = exch
    · obtain ⟨rfl, rfl⟩ := hkey
      rw [if_pos ⟨rfl, rfl⟩, Option.some.injEq]
      constructor
      · rintro rfl
        rw [if_pos rfl]
      · intro howner
        by_cases hptr : ptr = m.heap.length
        · exact hptr.symm
        · rw [if_neg hptr, ← h.slot, hfree] at howner
          cases howner
    · rw [if_neg hkey, h.slot]
      by_cases hptr : ptr = m.heap.length
      · rw [if_pos hptr]
        constructor
        · intro howner
          exact absurd (owner_lt howner) (by omega)
        · intro heq
          cases heq
          exact absurd ⟨rfl, rfl⟩ hkey
      · rw [if_neg hptr]
  case mirrored =>
    intro book hbook
    rcases List.mem_append.mp hbook with hold | hnew
    · exact h.mirrored book hold
    · rw [List.mem_singleton.mp hnew]
      exact new_mirrored ..

theorem extends_makeUnique {exch : Exchange} {pair : String}
    (hfree : m.slots pair exch = none) : m.Extends (m.makeUnique exch pair) := by
  constructor
  case slots =>
    intro pair' exch' ptr hslot
    refine (if_neg ?_).trans hslot
    rintro ⟨rfl, rfl⟩
    rw [hfree] at hslot
    cases hslot
  case owner =>
    intro ptr key howner
    rw [owner_makeUnique, if_neg (Nat.ne_of_lt (owner_lt howner)), howner]

theorem owner_write (m : AggregatorMemory) (ptr : ℕ) (call : BookCall) (ptr' : ℕ) :
    (m.happens std (.write ptr call)).owner ptr' = m.owner ptr' := by
  unfold owner happens
  rw [List.getElem?_modify]
  cases m.heap[ptr']? with
  | none => rfl
  | some book =>
    obtain ⟨hexch, hpair⟩ := OrderBookAggregator.apply_exchange_pair std book call
    by_cases hptr : ptr = ptr'
    · simp [hptr, hexch, hpair]
    · simp [hptr]

theorem keyed_happens (h : m.Keyed) (op : AggregatorOp) : (m.happens std op).Keyed := by
  cases op with
  | clock now => exact ⟨h.slot, h.mirrored⟩
  | write ptr call =>
    constructor
    case slot =>
      intro pair exch ptr'
      rw [owner_write]
      exact h.slot pair exch ptr'
    case mirrored =>
      intro book hbook
      obtain ⟨i, hi⟩ := List.mem_iff_getElem?.mp hbook
      unfold happens at hi
      rw [List.getElem?_modify] at hi
      obtain ⟨old, hold, rfl⟩ := Option.map_eq_some_iff.mp hi
      have hmirrored := h.mirrored old (List.mem_of_getElem? hold)
      split
      · exact apply_mirrored std call hmirrored
      · exact hmirrored

theorem extends_happens (m : AggregatorMemory) (op : AggregatorOp) : m.Extends (m.happens std op) := by
  cases op with
  | clock now => exact ⟨fun _ _ _ h => h, fun _ _ h => h⟩
  | write ptr call => exact ⟨fun _ _ _ h => h, fun ptr' key h => by rw [owner_write, h]⟩

/-! ### One section of a call -/

/-- A section leaves the memory as it is or creates the book of an empty slot. -/
theorem advance_cases (m : AggregatorMemory) (call : AggregatorCall) :
    (m.advance call).1 = m ∨ ∃ exch pair, call = .create exch pair ∧ m.slots pair exch = none ∧
      m.advance call = (m.makeUnique exch pair, .returned exch pair m.heap.length) := by
  cases call with
  | check exch pair =>
    left
    unfold advance
    dsimp only
    split <;> rfl
  | create exch pair =>
    unfold advance
    dsimp only
    split
    · exact .inl rfl
    next hfree => exact .inr ⟨exch, pair, rfl, hfree, rfl⟩
  | returned exch pair ptr => exact .inl rfl
  | collect pair depth => exact .inl rfl
  | read pair depth ptrs snapshots =>
    cases ptrs with
    | nil => exact .inl rfl
    | cons ptr ptrs => exact .inl rfl

theorem keyed_advance (h : m.Keyed) (call : AggregatorCall) : (m.advance call).1.Keyed := by
  rcases advance_cases m call with hsame | ⟨exch, pair, _, hfree, hmake⟩
  · rw [hsame]
    exact h
  · rw [hmake]
    exact keyed_makeUnique h hfree

theorem extends_advance (m : AggregatorMemory) (call : AggregatorCall) : m.Extends (m.advance call).1 := by
  rcases advance_cases m call with hsame | ⟨exch, pair, _, hfree, hmake⟩
  · rw [hsame]
    exact .refl m
  · rw [hmake]
    exact extends_makeUnique hfree

end AggregatorMemory

/-! ### All calls -/

abbrev AggregatorSystem := Interleaving.System AggregatorMemory AggregatorCall
abbrev AggregatorEvent := Interleaving.Event AggregatorRequest AggregatorOp

variable {std : StdSort PriceLevel}

/-- A returned reference is the pointer of its slot; collected pointers lead to books
of the pair. -/
def AggregatorCall.Sound (m : AggregatorMemory) : AggregatorCall → Prop
  | .returned exch pair ptr => m.slots pair exch = some ptr
  | .read pair _ ptrs _ => ∀ ptr ∈ ptrs, ∃ exch, m.owner ptr = some (exch, pair)
  | .check _ _ | .create _ _ | .collect _ _ => True

theorem AggregatorCall.Sound.mono {m m' : AggregatorMemory} (hext : m.Extends m')
    {call : AggregatorCall} (h : call.Sound m) : call.Sound m' := by
  cases call with
  | returned exch pair ptr => exact hext.slots pair exch ptr h
  | read pair depth ptrs snapshots =>
    intro ptr hptr
    obtain ⟨exch, howner⟩ := h ptr hptr
    exact ⟨exch, hext.owner ptr _ howner⟩
  | check exch pair | create exch pair | collect pair depth => trivial

theorem AggregatorCall.Sound.advance {m : AggregatorMemory} (hm : m.Keyed) {call : AggregatorCall}
    (h : call.Sound m) : (m.advance call).2.Sound (m.advance call).1 := by
  cases call with
  | check exch pair =>
    unfold AggregatorMemory.advance
    dsimp only
    split
    next ptr hslot => exact hslot
    next => trivial
  | create exch pair =>
    unfold AggregatorMemory.advance
    dsimp only
    split
    next ptr hslot => exact hslot
    next => exact if_pos ⟨rfl, rfl⟩
  | returned exch pair ptr => exact h
  | collect pair depth =>
    intro ptr hptr
    obtain ⟨exch, _, hslot⟩ := List.mem_filterMap.mp hptr
    exact ⟨exch, (hm.slot pair exch ptr).mp hslot⟩
  | read pair depth ptrs snapshots =>
    cases ptrs with
    | nil => exact h
    | cons ptr ptrs => exact fun ptr' hptr' => h ptr' (List.mem_cons_of_mem _ hptr')

structure AggregatorInv (sys : AggregatorSystem) : Prop where
  keyed : sys.shared.Keyed
  calls : ∀ call ∈ sys.calls, call.Sound sys.shared

theorem extends_step (sys : AggregatorSystem) (event : AggregatorEvent) :
    sys.shared.Extends (step (aggregatorProgram std) sys event).shared := by
  cases event with
  | start request => exact .refl _
  | atomic op => exact AggregatorMemory.extends_happens std _ op
  | advance i =>
    cases hi : sys.calls[i]? with
    | none => rw [step_advance_none hi]; exact .refl _
    | some call => rw [step_advance_some hi]; exact AggregatorMemory.extends_advance _ call

theorem AggregatorInv.step {sys : AggregatorSystem} (h : AggregatorInv sys) (event : AggregatorEvent) :
    AggregatorInv (step (aggregatorProgram std) sys event) := by
  have hext : sys.shared.Extends (Interleaving.step (aggregatorProgram std) sys event).shared :=
    extends_step sys event
  cases event with
  | start request =>
    refine ⟨h.keyed, ?_⟩
    intro call hcall
    rcases List.mem_append.mp hcall with hold | hnew
    · exact h.calls call hold
    · rw [List.mem_singleton.mp hnew]
      cases request <;> trivial
  | atomic op => exact ⟨AggregatorMemory.keyed_happens std h.keyed op, fun call hcall =>
      (h.calls call hcall).mono hext⟩
  | advance i =>
    cases hi : sys.calls[i]? with
    | none =>
      rw [step_advance_none hi]
      exact h
    | some call =>
      rw [step_advance_some hi] at hext ⊢
      refine ⟨AggregatorMemory.keyed_advance h.keyed call, ?_⟩
      intro other hother
      rcases List.mem_or_eq_of_mem_set hother with hold | rfl
      · exact (h.calls other hold).mono hext
      · exact (h.calls call (List.mem_of_getElem? hi)).advance h.keyed

/-! ### Seen from outside -/

inductive AggregatorStep where
  | create (exch : Exchange) (pair : String) (now : TimePoint)
  | write (exch : Exchange) (pair : String) (call : BookCall)

/-- A write goes to a book that is there, so nothing is created for it. -/
def OrderBookAggregator.take (std : StdSort PriceLevel) (aggregator : OrderBookAggregator) :
    AggregatorStep → OrderBookAggregator
  | .create exch pair now => aggregator.getOrCreateBook exch pair now
  | .write exch pair call => aggregator.applyTo std exch pair 0 call

def AggregatorStep.created : AggregatorStep → Option (Exchange × String)
  | .create exch pair _ => some (exch, pair)
  | .write _ _ _ => none

/-- A second look that finds an empty slot is a step of the aggregator. -/
def AggregatorCall.stepOn (m : AggregatorMemory) : AggregatorCall → Option AggregatorStep
  | .create exch pair =>
    if m.slots pair exch = none then some (.create exch pair m.now) else none
  | .check _ _ | .returned _ _ _ | .collect _ _ | .read _ _ _ _ => none

def AggregatorOp.stepOn (m : AggregatorMemory) : AggregatorOp → Option AggregatorStep
  | .clock _ => none
  | .write ptr call => (m.owner ptr).map fun key => .write key.1 key.2 call

def stepIn (sys : AggregatorSystem) : AggregatorEvent → Option AggregatorStep
  | .start _ => none
  | .atomic op => op.stepOn sys.shared
  | .advance i => sys.calls[i]?.bind (·.stepOn sys.shared)

def history (std : StdSort PriceLevel) (sys : AggregatorSystem) :
    List AggregatorEvent → List AggregatorStep
  | [] => []
  | event :: events =>
    (stepIn sys event).toList ++ history std (step (aggregatorProgram std) sys event) events

def Represents (m : AggregatorMemory) (aggregator : OrderBookAggregator) : Prop :=
  ∀ pair exch, aggregator.books pair exch = (m.slots pair exch).bind fun ptr => m.heap[ptr]?

theorem represents_makeUnique {m : AggregatorMemory} {aggregator : OrderBookAggregator}
    (hm : m.Keyed) (h : Represents m aggregator) {exch : Exchange} {pair : String}
    (hfree : m.slots pair exch = none) :
    Represents (m.makeUnique exch pair) (aggregator.getOrCreateBook exch pair m.now) := by
  intro pair' exch'
  unfold AggregatorMemory.makeUnique OrderBookAggregator.getOrCreateBook
  dsimp only
  split
  next =>
    have hnone : aggregator.books pair exch = none := by rw [h, hfree]; rfl
    simp [OrderBookAggregator.bookOrNew, OrderBookAggregator.getBook, hnone]
  next =>
    rw [h]
    cases hslot : m.slots pair' exch' with
    | none => rfl
    | some ptr =>
      have hlt := AggregatorMemory.owner_lt ((hm.slot pair' exch' ptr).mp hslot)
      exact (List.getElem?_append_left hlt).symm

theorem represents_write {m : AggregatorMemory} {aggregator : OrderBookAggregator} (hm : m.Keyed)
    (h : Represents m aggregator) {exch : Exchange} {pair : String} {ptr : ℕ}
    (howner : m.owner ptr = some (exch, pair)) (call : BookCall) :
    Represents (m.happens std (.write ptr call)) (aggregator.applyTo std exch pair 0 call) := by
  intro pair' exch'
  unfold AggregatorMemory.happens OrderBookAggregator.applyTo
  dsimp only
  obtain ⟨book, hbook, _⟩ := Option.map_eq_some_iff.mp howner
  have hslot := (hm.slot pair exch ptr).mpr howner
  split
  next hkey =>
    obtain ⟨rfl, rfl⟩ := hkey
    have hold : aggregator.books pair' exch' = some book := by
      rw [h, hslot, Option.bind_some, hbook]
    simp [OrderBookAggregator.bookOrNew, OrderBookAggregator.getBook, hold, hslot, hbook]
  next hkey =>
    rw [h]
    cases hother : m.slots pair' exch' with
    | none => rfl
    | some ptr' =>
      have hne : ptr ≠ ptr' := by
        rintro rfl
        rw [(hm.slot pair' exch' ptr).mp hother] at howner
        cases howner
        exact hkey ⟨rfl, rfl⟩
      simp [hne]

theorem represents_happens {m : AggregatorMemory} {aggregator : OrderBookAggregator} (hm : m.Keyed)
    (h : Represents m aggregator) (op : AggregatorOp) :
    Represents (m.happens std op) ((op.stepOn m).toList.foldl (·.take std) aggregator) := by
  cases op with
  | clock now => exact h
  | write ptr call =>
    rw [AggregatorOp.stepOn]
    cases howner : m.owner ptr with
    | some key => exact represents_write hm h howner call
    | none =>
      have hnone : m.heap[ptr]? = none := by simpa [AggregatorMemory.owner] using howner
      have hsame : (m.happens std (.write ptr call)).heap = m.heap :=
        List.modify_eq_self (List.getElem?_eq_none_iff.mp hnone)
      intro pair exch
      rw [hsame]
      exact h pair exch

theorem represents_advance {m : AggregatorMemory} {aggregator : OrderBookAggregator} (hm : m.Keyed)
    (h : Represents m aggregator) (call : AggregatorCall) :
    Represents (m.advance call).1 ((call.stepOn m).toList.foldl (·.take std) aggregator) := by
  cases call with
  | create exch pair =>
    unfold AggregatorMemory.advance AggregatorCall.stepOn
    dsimp only
    cases hslot : m.slots pair exch with
    | some ptr => exact h
    | none => exact represents_makeUnique hm h hslot
  | check exch pair =>
    unfold AggregatorMemory.advance
    dsimp only
    split
    · exact h
    · exact h
  | returned exch pair ptr | collect pair depth => exact h
  | read pair depth ptrs snapshots =>
    cases ptrs with
    | nil => exact h
    | cons ptr ptrs => exact h

theorem represents_step {sys : AggregatorSystem} {aggregator : OrderBookAggregator}
    (hsys : AggregatorInv sys) (h : Represents sys.shared aggregator) (event : AggregatorEvent) :
    Represents (step (aggregatorProgram std) sys event).shared
      ((stepIn sys event).toList.foldl (·.take std) aggregator) := by
  cases event with
  | start request => exact h
  | atomic op => exact represents_happens hsys.keyed h op
  | advance i =>
    rw [stepIn]
    cases hi : sys.calls[i]? with
    | none =>
      rw [step_advance_none hi]
      exact h
    | some call =>
      rw [step_advance_some hi]
      exact represents_advance hsys.keyed h call

theorem represents_run {sys : AggregatorSystem} {aggregator : OrderBookAggregator}
    (hsys : AggregatorInv sys) (h : Represents sys.shared aggregator) (events : List AggregatorEvent) :
    Represents (Runs.run (step (aggregatorProgram std)) sys events).shared
      ((history std sys events).foldl (·.take std) aggregator) := by
  induction events generalizing sys aggregator with
  | nil => exact h
  | cons event events ih =>
    rw [history, List.foldl_append]
    exact ih (hsys.step event) (represents_step hsys h event)

/-! ### Created once -/

theorem created_free {sys : AggregatorSystem} {event : AggregatorEvent} {key : Exchange × String}
    (h : (stepIn sys event).bind AggregatorStep.created = some key) :
    sys.shared.slots key.2 key.1 = none ∧
      ((step (aggregatorProgram std) sys event).shared.slots key.2 key.1).isSome := by
  cases event with
  | start request => cases h
  | atomic op =>
    cases op with
    | clock now => cases h
    | write ptr call =>
      rw [stepIn, AggregatorOp.stepOn] at h
      cases howner : sys.shared.owner ptr with
      | none => rw [howner] at h; cases h
      | some owner => rw [howner] at h; cases h
  | advance i =>
    rw [stepIn] at h
    cases hi : sys.calls[i]? with
    | none => rw [hi] at h; cases h
    | some call =>
      rw [hi, Option.bind_some] at h
      rw [step_advance_some hi]
      cases call with
      | create exch pair =>
        rw [AggregatorCall.stepOn] at h
        split at h
        next hfree =>
          cases h
          refine ⟨hfree, ?_⟩
          simp [aggregatorProgram, AggregatorMemory.advance, hfree, AggregatorMemory.makeUnique]
        next => cases h
      | check exch pair | returned exch pair ptr | collect pair depth
      | read pair depth ptrs snapshots => cases h

/-- What a run creates had no book before, and is created once. -/
theorem created_once (sys : AggregatorSystem) (events : List AggregatorEvent) :
    ((history std sys events).filterMap AggregatorStep.created).Nodup ∧
      ∀ key ∈ (history std sys events).filterMap AggregatorStep.created,
        sys.shared.slots key.2 key.1 = none := by
  induction events generalizing sys with
  | nil => exact ⟨.nil, nofun⟩
  | cons event events ih =>
    obtain ⟨hnodup, hfree⟩ := ih (step (aggregatorProgram std) sys event)
    have hlater : ∀ key ∈ (history std (step (aggregatorProgram std) sys event) events).filterMap
        AggregatorStep.created, sys.shared.slots key.2 key.1 = none := by
      intro key hkey
      have hnone := hfree key hkey
      cases hslot : sys.shared.slots key.2 key.1 with
      | none => rfl
      | some ptr =>
        rw [(extends_step sys event).slots _ _ _ hslot] at hnone
        cases hnone
    rw [history, List.filterMap_append]
    cases hcreated : (stepIn sys event).bind AggregatorStep.created with
    | none =>
      have hnil : (stepIn sys event).toList.filterMap AggregatorStep.created = [] := by
        cases hstep : stepIn sys event with
        | none => rfl
        | some s => simpa [hstep] using hcreated
      rw [hnil, List.nil_append]
      exact ⟨hnodup, hlater⟩
    | some key =>
      obtain ⟨hbefore, hafter⟩ := created_free hcreated
      have hone : (stepIn sys event).toList.filterMap AggregatorStep.created = [key] := by
        obtain ⟨s, hs, hkey⟩ := Option.bind_eq_some_iff.mp hcreated
        simp [hs, hkey]
      rw [hone, List.singleton_append, List.nodup_cons]
      refine ⟨⟨?_, hnodup⟩, ?_⟩
      · intro hmem
        rw [hfree key hmem] at hafter
        cases hafter
      · intro other hother
        rcases List.mem_cons.mp hother with rfl | hother
        · exact hbefore
        · exact hlater other hother

theorem aggregatorInv_run {sys : AggregatorSystem} (h : AggregatorInv sys)
    (events : List AggregatorEvent) :
    AggregatorInv (Runs.run (step (aggregatorProgram std)) sys events) :=
  Runs.invariant_run (fun _ event hsys => hsys.step event) events h

theorem aggregatorInv_empty : AggregatorInv ⟨{}, []⟩ := ⟨AggregatorMemory.keyed_empty, nofun⟩

/-- However the threads are interleaved, the aggregator behaves as one on which the
second looks and the writer calls run one after another: each book is created once
and every caller of `get_or_create_book` has the reference to it. -/
theorem aggregator_threads_linear (std : StdSort PriceLevel) (events : List AggregatorEvent) :
    let sys := Runs.run (step (aggregatorProgram std)) ⟨{}, []⟩ events
    let steps := history std ⟨{}, []⟩ events
    Represents sys.shared (steps.foldl (·.take std) .empty) ∧
      (steps.filterMap AggregatorStep.created).Nodup ∧
      ∀ exch pair ptr, .returned exch pair ptr ∈ sys.calls →
        sys.shared.owner ptr = some (exch, pair) ∧
          ∀ later, (Runs.run (step (aggregatorProgram std)) sys later).shared.slots pair exch =
            some ptr := by
  intro sys steps
  have hinv : AggregatorInv sys := aggregatorInv_run aggregatorInv_empty events
  refine ⟨represents_run aggregatorInv_empty (fun _ _ => rfl) events,
    (created_once ⟨{}, []⟩ events).1, ?_⟩
  intro exch pair ptr hcall
  have hslot : sys.shared.slots pair exch = some ptr := hinv.calls _ hcall
  refine ⟨(hinv.keyed.slot pair exch ptr).mp hslot, fun later => ?_⟩
  exact Runs.invariant_run (I := fun s : AggregatorSystem => s.shared.slots pair exch = some ptr)
    (fun s event hs => (extends_step s event).slots pair exch ptr hs) later hslot

/-! ### The snapshots of a pair -/

/-- What the call has read and still has to read is the list of the books it saw. -/
structure Listing (i : ℕ) (pair : String) (depth : ℕ) (seen : List (Exchange × String))
    (sys : AggregatorSystem) : Prop where
  inv : AggregatorInv sys
  call : ∃ ptrs snapshots, sys.calls[i]? = some (.read pair depth ptrs snapshots) ∧
    (snapshots.map fun snap => (snap.exchange, snap.pair)) ++ ptrs.filterMap sys.shared.owner = seen

theorem filterMap_owner {m m' : AggregatorMemory} (hext : m.Extends m') {pair : String}
    {ptrs : List ℕ} (h : ∀ ptr ∈ ptrs, ∃ exch, m.owner ptr = some (exch, pair)) :
    ptrs.filterMap m'.owner = ptrs.filterMap m.owner := by
  refine List.filterMap_congr fun ptr hptr => ?_
  obtain ⟨exch, howner⟩ := h ptr hptr
  rw [howner, hext.owner ptr _ howner]

theorem read_one {m : AggregatorMemory} (hm : m.Keyed) {ptr : ℕ} {key : Exchange × String}
    (howner : m.owner ptr = some key) (depth : ℕ) :
    ∃ snap, (m.heap[ptr]?.bind fun book => book.snapshot depth) = some snap ∧
      (snap.exchange, snap.pair) = key := by
  obtain ⟨book, hbook, rfl⟩ := Option.map_eq_some_iff.mp howner
  obtain ⟨snap, hsnap, hexch, hpair, _⟩ := snapshot_mirrored
    (hm.mirrored book (List.mem_of_getElem? hbook)) (Int.natCast_nonneg depth)
  exact ⟨snap, by rw [hbook, Option.bind_some, hsnap], by rw [hexch, hpair]⟩

theorem Listing.step {i : ℕ} {pair : String} {depth : ℕ} {seen : List (Exchange × String)}
    {sys : AggregatorSystem} (h : Listing i pair depth seen sys) (event : AggregatorEvent) :
    Listing i pair depth seen (step (aggregatorProgram std) sys event) := by
  obtain ⟨ptrs, snapshots, hcall, hseen⟩ := h.call
  have hext : sys.shared.Extends (Interleaving.step (aggregatorProgram std) sys event).shared :=
    extends_step sys event
  have hsound := h.inv.calls _ (List.mem_of_getElem? hcall)
  have hi := (List.getElem?_eq_some_iff.mp hcall).1
  refine ⟨h.inv.step event, ?_⟩
  have hkept : (snapshots.map fun snap => (snap.exchange, snap.pair)) ++
      ptrs.filterMap (Interleaving.step (aggregatorProgram std) sys event).shared.owner = seen := by
    rw [filterMap_owner hext hsound, hseen]
  cases event with
  | start request => exact ⟨ptrs, snapshots, (List.getElem?_append_left hi).trans hcall, hkept⟩
  | atomic op => exact ⟨ptrs, snapshots, hcall, hkept⟩
  | advance j =>
    by_cases hji : j = i
    · subst hji
      rw [step_advance_some hcall]
      cases ptrs with
      | nil => exact ⟨[], snapshots, List.getElem?_set_self hi, hseen⟩
      | cons ptr ptrs =>
        obtain ⟨exch, howner⟩ := hsound ptr (List.mem_cons_self ..)
        obtain ⟨snap, hsnap, hkey⟩ := read_one h.inv.keyed howner depth
        refine ⟨ptrs, snapshots ++ [snap], ?_, ?_⟩
        · rw [List.getElem?_set_self hi]
          simp [aggregatorProgram, AggregatorMemory.advance, hsnap]
        · rw [List.filterMap_cons_some howner] at hseen
          rw [← hseen, List.map_append, List.append_assoc, List.map_singleton, hkey]
          rfl
    · refine ⟨ptrs, snapshots, ?_, hkept⟩
      cases hj : sys.calls[j]? with
      | none => rw [step_advance_none hj, hcall]
      | some other => rw [step_advance_some hj, List.getElem?_set_ne hji, hcall]

/-- Where `get_pair_snapshots` returns, it returns one snapshot for each exchange that
had a book of the pair when it took the lock, in the order of the array, whatever
other threads did while it was reading. -/
theorem pairSnapshots_complete (std : StdSort PriceLevel) (before after : List AggregatorEvent)
    {i : ℕ} {pair : String} {depth : ℕ} {snapshots : List OrderBookSnapshot}
    (hcollect : (Runs.run (step (aggregatorProgram std)) ⟨{}, []⟩ before).calls[i]? =
      some (.collect pair depth))
    (hdone : (Runs.run (step (aggregatorProgram std)) ⟨{}, []⟩
      (before ++ .advance i :: after)).calls[i]? = some (.read pair depth [] snapshots)) :
    (snapshots.map fun snap => (snap.exchange, snap.pair)) =
      (Exchange.ids.filter fun exch =>
        ((Runs.run (step (aggregatorProgram std)) ⟨{}, []⟩ before).shared.slots pair exch).isSome).map
          fun exch => (exch, pair) := by
  have hinv : AggregatorInv (Runs.run (step (aggregatorProgram std)) ⟨{}, []⟩ before) :=
    aggregatorInv_run aggregatorInv_empty before
  rw [Runs.run_append, Runs.run_cons] at hdone
  generalize Runs.run (step (aggregatorProgram std)) ⟨{}, []⟩ before = sys at hcollect hdone hinv ⊢
  have hi := (List.getElem?_eq_some_iff.mp hcollect).1
  have hseen : (Exchange.ids.filterMap (sys.shared.slots pair)).filterMap sys.shared.owner =
      (Exchange.ids.filter fun exch => (sys.shared.slots pair exch).isSome).map
        fun exch => (exch, pair) := by
    rw [List.filterMap_filterMap, ← List.filterMap_eq_map, List.filterMap_filter]
    refine List.filterMap_congr fun exch _ => ?_
    cases hslot : sys.shared.slots pair exch with
    | none => rfl
    | some ptr => simpa using (hinv.keyed.slot pair exch ptr).mp hslot
  have hstart : Listing i pair depth
      ((Exchange.ids.filter fun exch => (sys.shared.slots pair exch).isSome).map
        fun exch => (exch, pair))
      (step (aggregatorProgram std) sys (.advance i)) := by
    refine ⟨hinv.step _, Exchange.ids.filterMap (sys.shared.slots pair), [], ?_, ?_⟩
    · rw [step_advance_some hcollect, List.getElem?_set_self hi]
      rfl
    · rw [step_advance_some hcollect]
      exact hseen
  obtain ⟨ptrs, read, hcall, hlisted⟩ :=
    (Runs.invariant_run (fun _ event hsys => hsys.step event) after hstart).call
  rw [hdone] at hcall
  cases hcall
  simpa using hlisted

/-- Two threads ask for one book, a third for another, and a reader collects both. -/
def raceForBooks : List AggregatorEvent :=
  [.start (.getOrCreateBook .okx "BTC-USDT"), .start (.getOrCreateBook .okx "BTC-USDT"),
    .start (.getOrCreateBook .bybit "BTC-USDT"), .start (.getPairSnapshots "BTC-USDT" 20),
    .advance 0, .advance 1, .advance 2, .advance 1, .advance 0, .advance 2]

theorem raceForBooks_listed :
    (([{ exchange := .okx, pair := "BTC-USDT", bids := [], asks := [] },
        { exchange := .bybit, pair := "BTC-USDT", bids := [], asks := [] }] :
          List OrderBookSnapshot).map fun snap => (snap.exchange, snap.pair)) =
      (Exchange.ids.filter fun exch => ((Runs.run (step (aggregatorProgram .mergeSort)) ⟨{}, []⟩
        raceForBooks).shared.slots "BTC-USDT" exch).isSome).map fun exch => (exch, "BTC-USDT") := by
  have hcollect : (Runs.run (step (aggregatorProgram .mergeSort)) ⟨{}, []⟩ raceForBooks).calls[3]? =
      some (.collect "BTC-USDT" 20) := rfl
  exact pairSnapshots_complete .mergeSort raceForBooks [.advance 3, .advance 0, .advance 3] hcollect rfl

end CryptoArbBot
