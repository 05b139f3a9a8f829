import CryptoArbBot.Library.Runs
import CryptoArbBot.Library.Ring
import Mathlib.Logic.Function.Basic

/-!
# The broadcast queue (server/broadcast_queue.cpp)

A ring buffer of messages between the threads that call `broadcast` and the
drain thread. Every load and store of an index and every access of a slot is one
step; a call begins with its first load. Beside the queue the system keeps the
messages whose `try_push` returned true, the messages popped and the number of
pushes that returned false.
-/

namespace CryptoArbBot

structure BroadcastQueue where
  buffer : List String
  capacity : ℕ
  head : ℕ := 0
  tail : ℕ := 0
  dropped : ℕ := 0

namespace BroadcastQueue

/-- The constructor; `capacity + 1` is computed in `size_t`. -/
def new (capacity : ℕ) : BroadcastQueue :=
  { buffer := List.replicate (max ((capacity + 1) % 2 ^ 64) 2) ""
    capacity := max ((capacity + 1) % 2 ^ 64) 2 }

def next (q : BroadcastQueue) (index : ℕ) : ℕ := (index + 1) % 2 ^ 64 % q.capacity

def size (q : BroadcastQueue) : ℕ :=
  if q.head ≥ q.tail then q.head - q.tail else q.capacity - q.tail + q.head

def droppedCount (q : BroadcastQueue) : ℕ := q.dropped

end BroadcastQueue

namespace Broadcast

/-- Where a `try_push` stands. `full` is about to count the message as dropped. -/
inductive PushPhase where
  | idle
  | loaded (message : String) (curHead : ℕ)
  | full
  | checked (message : String) (curHead nextHead : ℕ)
  | written (message : String) (nextHead : ℕ)
deriving DecidableEq

inductive PopPhase where
  | idle
  | loaded (curTail : ℕ)
  | checked (curTail : ℕ)
  | moved (curTail : ℕ) (msg : String)
deriving DecidableEq

structure System (ι : Type) where
  queue : BroadcastQueue
  producers : ι → PushPhase := fun _ => .idle
  consumer : PopPhase := .idle
  accepted : List String := []
  popped : List String := []
  rejected : ℕ := 0

/-- `consumer` names what a moved-from slot is left with, which the language
does not fix. -/
inductive Action (ι : Type) where
  | push (i : ι) (message : String)
  | producer (i : ι)
  | pop
  | consumer (left : String)

variable {ι : Type}

def System.new (capacity : ℕ) : System ι := { queue := BroadcastQueue.new capacity }

def Idle (s : System ι) : Prop := (∀ i, s.producers i = .idle) ∧ s.consumer = .idle

/-- A slot is about to be written by one thread and read by the other. -/
def SlotRace (s : System ι) : Prop :=
  ∃ i message slot nextHead,
    s.producers i = .checked message slot nextHead ∧ s.consumer = .checked slot

def System.setProducer [DecidableEq ι] (s : System ι) (i : ι) (phase : PushPhase) : System ι :=
  { s with producers := Function.update s.producers i phase }

def System.tryPush [DecidableEq ι] (s : System ι) (i : ι) : System ι :=
  match s.producers i with
  | .idle => s
  | .loaded message curHead =>
    if s.queue.next curHead = s.queue.tail then s.setProducer i .full
    else s.setProducer i (.checked message curHead (s.queue.next curHead))
  | .full =>
    { s.setProducer i .idle with
      queue := { s.queue with dropped := (s.queue.dropped + 1) % 2 ^ 64 }
      rejected := s.rejected + 1 }
  | .checked message curHead nextHead =>
    { s.setProducer i (.written message nextHead) with
      queue := { s.queue with buffer := s.queue.buffer.set curHead message } }
  | .written message nextHead =>
    { s.setProducer i .idle with
      queue := { s.queue with head := nextHead }
      accepted := s.accepted ++ [message] }

def System.tryPop (s : System ι) (left : String) : System ι :=
  match s.consumer with
  | .idle => s
  | .loaded curTail =>
    if curTail = s.queue.head then { s with consumer := .idle }
    else { s with consumer := .checked curTail }
  | .checked curTail =>
    { s with
      consumer := .moved curTail (s.queue.buffer.getD curTail "")
      queue := { s.queue with buffer := s.queue.buffer.set curTail left } }
  | .moved curTail msg =>
    { s with
      consumer := .idle
      queue := { s.queue with tail := s.queue.next curTail }
      popped := s.popped ++ [msg] }

theorem System.tryPop_frame (s : System ι) (left : String) :
    (s.tryPop left).accepted = s.accepted ∧ (s.tryPop left).producers = s.producers ∧
      (s.tryPop left).queue.head = s.queue.head ∧
      (s.tryPop left).queue.capacity = s.queue.capacity ∧
      s.popped.length ≤ (s.tryPop left).popped.length := by
  unfold System.tryPop
  cases s.consumer with
  | idle => exact ⟨rfl, rfl, rfl, rfl, le_rfl⟩
  | loaded curTail =>
    dsimp only
    by_cases hempty : curTail = s.queue.head
    · rw [if_pos hempty]
      exact ⟨rfl, rfl, rfl, rfl, le_rfl⟩
    · rw [if_neg hempty]
      exact ⟨rfl, rfl, rfl, rfl, le_rfl⟩
  | checked curTail => exact ⟨rfl, rfl, rfl, rfl, le_rfl⟩
  | moved curTail msg => exact ⟨rfl, rfl, rfl, rfl, by simp⟩

/-- A thread begins a call only when its last one has returned. -/
def step [DecidableEq ι] (s : System ι) : Action ι → System ι
  | .push i message =>
    if s.producers i = .idle then s.setProducer i (.loaded message s.queue.head) else s
  | .producer i => s.tryPush i
  | .pop => if s.consumer = .idle then { s with consumer := .loaded s.queue.tail } else s
  | .consumer left => s.tryPop left

theorem step_capacity [DecidableEq ι] (s : System ι) (a : Action ι) :
    (step s a).queue.capacity = s.queue.capacity := by
  cases a with
  | push i message =>
    simp only [step]
    split <;> rfl
  | pop =>
    simp only [step]
    split <;> rfl
  | consumer left => exact (s.tryPop_frame left).2.2.2.1
  | producer i =>
    simp only [step, System.tryPush]
    cases s.producers i with
    | loaded message curHead =>
      dsimp only
      split <;> rfl
    | idle => rfl
    | full => rfl
    | checked message curHead nextHead => rfl
    | written message nextHead => rfl

end Broadcast

end CryptoArbBot
