import CryptoArbBot.Server.BroadcastOrder
import Mathlib.Logic.Function.Iterate

/-!
# Broadcasts from several threads

The main loop and the feed threads push into one queue. While no two of them are
between the load and the store of the head together in a harmful way, every
accepted message reaches the drain thread, once and in order.
-/

namespace CryptoArbBot.Broadcast

variable {ι : Type} [DecidableEq ι]

/-- The consumer's next step when it pops without pause. -/
def drain (left : String) (s : System ι) : System ι :=
  if s.consumer = .idle then step s .pop else step s (.consumer left)

def PopPhase.progress : PopPhase → ℕ
  | .idle => 0
  | .loaded _ => 1
  | .checked _ => 2
  | .moved _ _ => 3

/-- Steps the consumer still has to take; a pop takes four. -/
def System.pending (s : System ι) : ℕ :=
  4 * (s.accepted.length - s.popped.length) - s.consumer.progress

variable {s : System ι}

theorem Inv.drain (h : Inv s) (left : String) : Inv (drain left s) := by
  unfold Broadcast.drain
  split
  · exact h.step trivial
  · exact h.step trivial

theorem drain_accepted (left : String) : (drain left s).accepted = s.accepted := by
  by_cases hidle : s.consumer = .idle
  · simp only [drain, step, hidle, if_true]
  · simp only [drain, if_neg hidle]
    exact (s.tryPop_frame left).1

theorem Inv.drain_pending (h : Inv s) (hlt : s.popped.length < s.accepted.length) (left : String) :
    (Broadcast.drain left s).pending < s.pending := by
  have hsound : PopPhase.Sound s s.consumer := h.consumer
  unfold System.pending
  cases hc : s.consumer with
  | idle =>
    simp only [Broadcast.drain, Broadcast.step, hc, if_true, PopPhase.progress]
    omega
  | loaded curTail =>
    rw [hc] at hsound
    have htail : curTail = s.queue.tail := hsound
    have hne : curTail ≠ s.queue.head := by
      intro heq
      have := h.tail_eq_head.mp (htail.symm.trans heq)
      omega
    simp only [Broadcast.drain, Broadcast.step, System.tryPop, hc, reduceCtorEq, if_false, if_neg hne,
      PopPhase.progress]
    omega
  | checked curTail =>
    simp only [Broadcast.drain, Broadcast.step, System.tryPop, hc, reduceCtorEq, if_false, PopPhase.progress]
    omega
  | moved curTail msg =>
    simp only [Broadcast.drain, Broadcast.step, System.tryPop, hc, reduceCtorEq, if_false, PopPhase.progress,
      List.length_append, List.length_singleton]
    omega

theorem Inv.exists_drained (left : String) {n : ℕ} {s : System ι} (h : Inv s) (hn : s.pending ≤ n) :
    ∃ k, ((Broadcast.drain left)^[k] s).popped = s.accepted := by
  induction n generalizing s with
  | zero =>
    have hle := h.length_le
    have hprogress : s.consumer.progress ≤ 3 := by
      cases s.consumer <;> simp [PopPhase.progress]
    have hlen : s.popped.length = s.accepted.length := by
      unfold System.pending at hn
      omega
    exact ⟨0, h.order.eq_of_length hlen⟩
  | succ n ih =>
    rcases Nat.lt_or_ge s.popped.length s.accepted.length with hlt | hge
    · have hless := h.drain_pending hlt left
      obtain ⟨k, hk⟩ := ih (h.drain left) (by omega)
      refine ⟨k + 1, ?_⟩
      rw [Function.iterate_succ_apply, hk, drain_accepted]
    · exact ⟨0, h.order.eq_of_length_le hge⟩

/-- The messages popped so far are the first accepted ones, and the consumer
gets all of them when it goes on. -/
def Delivered (s : System ι) : Prop :=
  s.popped <+: s.accepted ∧
    ∀ left, ∃ k, ((Broadcast.drain left)^[k] s).popped = s.accepted

theorem Inv.delivered (h : Inv s) : Delivered s :=
  ⟨h.order, fun left => h.exists_drained left le_rfl⟩

theorem broadcasts_delivered {capacity : ℕ} (hcap : capacity < 2 ^ 64 - 1)
    {actions : List (Action ι)}
    (hok : Runs.Along step WriteUncontended (System.new capacity) actions) :
    Runs.Always step Delivered (System.new capacity) actions := by
  have hinv : Runs.Always step Inv (System.new capacity) actions :=
    Runs.always_of_along (fun s a hs ha => Inv.step hs ha) (Inv.new hcap) hok
  exact hinv.imp fun s hs => hs.delivered

theorem broadcasts_delivered_one : Runs.Always step Delivered (System.new 8192)
    [Action.push true "price", .producer true, .producer true, .producer true, .pop,
      .consumer "", .consumer "", .consumer ""] := by
  refine broadcasts_delivered (by decide) ⟨trivial, trivial, ⟨rfl, ?_, ?_⟩, trivial, trivial,
    trivial, trivial, trivial, trivial⟩
  · show 1 ≠ 0
    decide
  · intro j
    cases j with
    | true => exact fun hw => hw
    | false => exact fun hw => hw

def contendedPushes : List (Action Bool) :=
  [.push true "price", .push false "trade", .producer true, .producer false, .producer true,
    .producer false, .producer true, .producer false, .pop, .consumer "", .consumer "", .consumer ""]

/-- The first message is overwritten before anyone reads it. -/
theorem contended_push_lost : ¬ ∀ actions : List (Action Bool),
    Runs.Always step Delivered (System.new 8192) actions := by
  intro h
  have hlast : Delivered (Runs.run step (System.new 8192) contendedPushes) :=
    (h contendedPushes).last
  have haccepted : (Runs.run step (System.new 8192) contendedPushes).accepted =
      ["price", "trade"] := rfl
  have hpopped : (Runs.run step (System.new 8192) contendedPushes).popped = ["trade"] := rfl
  have hprefix := hlast.1
  rw [haccepted, hpopped] at hprefix
  exact absurd hprefix (by decide)

end CryptoArbBot.Broadcast
