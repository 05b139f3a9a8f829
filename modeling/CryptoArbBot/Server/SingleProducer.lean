import CryptoArbBot.Server.BroadcastOrder

/-!
# One producer and one consumer

With a single thread pushing, the head it loaded is the head it writes at, so
that every run meets the condition of the step lemma.
-/

namespace CryptoArbBot.Broadcast

/-- The producer's local copies are up to date. -/
def PushPhase.Current (s : System Unit) : PushPhase → Prop
  | .idle | .full | .written _ _ => True
  | .loaded _ curHead => curHead = s.queue.head
  | .checked _ curHead _ =>
    curHead = s.queue.head ∧ s.accepted.length + 1 < s.popped.length + s.queue.capacity

def Single (s : System Unit) : Prop := Inv s ∧ PushPhase.Current s (s.producers ())

variable {s : System Unit}

theorem PushPhase.Current.transfer {t : System Unit} (hhead : t.queue.head = s.queue.head)
    (hcap : t.queue.capacity = s.queue.capacity) (haccepted : t.accepted = s.accepted)
    (hpopped : s.popped.length ≤ t.popped.length) {phase : PushPhase} (h : phase.Current s) :
    phase.Current t := by
  cases phase with
  | idle => trivial
  | full => trivial
  | written message nextHead => trivial
  | loaded message curHead => exact h.trans hhead.symm
  | checked message curHead nextHead =>
    obtain ⟨hcur, hroom⟩ := h
    refine ⟨hcur.trans hhead.symm, ?_⟩
    rw [haccepted, hcap]
    omega

theorem Single.uncontended (h : Single s) (a : Action Unit) : WriteUncontended s a := by
  obtain ⟨hinv, hcurrent⟩ := h
  cases a with
  | push i message => trivial
  | pop => trivial
  | consumer left => trivial
  | producer i =>
    cases hi : s.producers i with
    | idle => simp only [WriteUncontended, hi]
    | loaded message curHead => simp only [WriteUncontended, hi]
    | full => simp only [WriteUncontended, hi]
    | written message nextHead => simp only [WriteUncontended, hi]
    | checked message curHead nextHead =>
      have hsound : PushPhase.Sound s (s.producers i) := hinv.producers i
      rw [hi] at hcurrent hsound
      obtain ⟨hhead, hroom⟩ := hcurrent
      obtain ⟨-, hnext⟩ := hsound
      simp only [WriteUncontended, hi]
      refine ⟨hhead, ?_, fun j hw => hw⟩
      intro htail
      rw [hnext, hhead] at htail
      have := hinv.next_head_eq_tail.mp htail
      omega

theorem Single.current_tryPush (h : Single s) :
    PushPhase.Current (s.tryPush ()) ((s.tryPush ()).producers ()) := by
  obtain ⟨hinv, hcurrent⟩ := h
  cases hi : s.producers () with
  | idle =>
    simp only [System.tryPush, hi]
    trivial
  | loaded message curHead =>
    rw [hi] at hcurrent
    have hhead : curHead = s.queue.head := hcurrent
    simp only [System.tryPush, hi]
    split
    · trivial
    · rename_i hne
      have hfull : s.accepted.length + 1 ≠ s.popped.length + s.queue.capacity := fun heq =>
        hne (hhead ▸ hinv.next_head_eq_tail.mpr heq)
      have hroom := hinv.room
      refine ⟨hhead, ?_⟩
      show s.accepted.length + 1 < s.popped.length + s.queue.capacity
      omega
  | full =>
    simp only [System.tryPush, hi]
    trivial
  | checked message curHead nextHead =>
    simp only [System.tryPush, hi]
    trivial
  | written message nextHead =>
    simp only [System.tryPush, hi]
    trivial

theorem Single.step (h : Single s) (a : Action Unit) : Single (step s a) := by
  refine ⟨h.1.step (h.uncontended a), ?_⟩
  cases a with
  | push i message =>
    simp only [Broadcast.step]
    split
    · rfl
    · exact h.2
  | pop =>
    simp only [Broadcast.step]
    split
    · exact h.2.transfer rfl rfl rfl le_rfl
    · exact h.2
  | producer i => exact h.current_tryPush
  | consumer left =>
    obtain ⟨haccepted, hproducers, hhead, hcap, hpopped⟩ := s.tryPop_frame left
    show PushPhase.Current (s.tryPop left) ((s.tryPop left).producers ())
    rw [hproducers]
    exact h.2.transfer hhead hcap haccepted hpopped

theorem Single.run {capacity : ℕ} (hcap : capacity < 2 ^ 64 - 1) (actions : List (Action Unit)) :
    Single (Runs.run Broadcast.step (System.new capacity) actions) :=
  Runs.invariant_run (I := Single) (fun _ a hs => Single.step hs a) actions ⟨Inv.new hcap, trivial⟩

/-- Both the write and the read would be the next step, at different slots. -/
theorem Single.no_race (h : Single s) : ¬ SlotRace s := by
  rintro ⟨i, message, slot, nextHead, hi, hc⟩
  obtain ⟨hinv, hcurrent⟩ := h
  have hsound : PopPhase.Sound s s.consumer := hinv.consumer
  rw [hi] at hcurrent
  rw [hc] at hsound
  obtain ⟨hhead, -⟩ := hcurrent
  obtain ⟨htail, hlt⟩ := hsound
  have := hinv.tail_eq_head.mp (htail.symm.trans hhead)
  omega

theorem capacity_run (capacity : ℕ) (actions : List (Action Unit)) :
    (Runs.run step (System.new capacity) actions).queue.capacity =
      (BroadcastQueue.new capacity).capacity :=
  Runs.invariant_run
    (I := fun s : System Unit => s.queue.capacity = (BroadcastQueue.new capacity).capacity)
    (fun s a hs => (step_capacity s a).trans hs) actions rfl

theorem lossless_fifo {capacity : ℕ} (hcap : capacity < 2 ^ 64 - 1)
    (actions : List (Action Unit)) :
    let s := Runs.run step (System.new capacity) actions
    s.popped <+: s.accepted ∧ ¬ SlotRace s ∧
      s.accepted.length - s.popped.length ≤ max capacity 1 ∧
      (Idle s → s.queue.size = s.accepted.length - s.popped.length ∧
        s.queue.droppedCount = s.rejected % 2 ^ 64) := by
  intro s
  have hsingle : Single s := Single.run hcap actions
  have hcapacity : s.queue.capacity = max (capacity + 1) 2 := by
    have hnowrap : (capacity + 1) % 2 ^ 64 = capacity + 1 := Nat.mod_eq_of_lt (by omega)
    refine (capacity_run capacity actions).trans ?_
    show max ((capacity + 1) % 2 ^ 64) 2 = _
    rw [hnowrap]
  have hroom := hsingle.1.room
  refine ⟨hsingle.1.order, hsingle.no_race, by omega, fun _ => ⟨hsingle.1.size_eq, hsingle.1.dropped⟩⟩

theorem lossless_fifo_two :
    let s := Runs.run step (System.new 2)
      [Action.push () "a", .producer (), .producer (), .producer (), .push () "b", .pop]
    s.popped <+: s.accepted ∧ ¬ SlotRace s ∧
      s.accepted.length - s.popped.length ≤ max 2 1 ∧
      (Idle s → s.queue.size = s.accepted.length - s.popped.length ∧
        s.queue.droppedCount = s.rejected % 2 ^ 64) :=
  lossless_fifo (by decide) _

/-! ### The drop counter -/

/-- A push that finds the queue full. -/
def rejectedPush : List (Action Unit) := [.push () "", .producer (), .producer ()]

/-- No call in progress and no free slot. -/
structure Full (s : System Unit) (dropped rejected : ℕ) : Prop where
  idle : Idle s
  full : s.queue.next s.queue.head = s.queue.tail
  dropped : s.queue.dropped = dropped
  rejected : s.rejected = rejected

theorem Full.reject {dropped rejected : ℕ} (h : Full s dropped rejected) :
    Full (Runs.run step s rejectedPush) ((dropped + 1) % 2 ^ 64) (rejected + 1) := by
  have hidle : s.producers () = .idle := h.idle.1 ()
  have hfull := h.full
  have hrun : Runs.run step s rejectedPush =
      { s.setProducer () .idle with
        queue := { s.queue with dropped := (s.queue.dropped + 1) % 2 ^ 64 }
        rejected := s.rejected + 1 } := by
    simp only [rejectedPush, Runs.run_cons, Runs.run_nil, step, hidle, if_true, System.setProducer,
      System.tryPush, Function.update_self, Function.update_idem, hfull]
  rw [hrun]
  refine ⟨⟨fun i => ?_, h.idle.2⟩, hfull, ?_, ?_⟩
  · show Function.update s.producers () .idle () = .idle
    exact Function.update_self ..
  · rw [← h.dropped]
  · rw [← h.rejected]

theorem Full.reject_all (k : ℕ) {s : System Unit} {dropped rejected : ℕ}
    (h : Full s (dropped % 2 ^ 64) rejected) :
    Full (Runs.run step s (List.replicate k rejectedPush).flatten) ((dropped + k) % 2 ^ 64)
      (rejected + k) := by
  induction k generalizing s dropped rejected with
  | zero => exact h
  | succ k ih =>
    have hone : Full (Runs.run step s rejectedPush) ((dropped + 1) % 2 ^ 64) (rejected + 1) := by
      have := h.reject
      rwa [Nat.mod_add_mod] at this
    rw [List.replicate_succ, List.flatten_cons, Runs.run_append,
      show dropped + (k + 1) = dropped + 1 + k by omega,
      show rejected + (k + 1) = rejected + 1 + k by omega]
    exact ih hone

/-- The counter is back at zero after `2 ^ 64` rejected pushes. -/
theorem dropped_count_wraps : ¬ ∀ capacity < 2 ^ 64 - 1, ∀ actions : List (Action Unit),
    Idle (Runs.run step (System.new capacity) actions) →
      (Runs.run step (System.new capacity) actions).queue.droppedCount =
        (Runs.run step (System.new capacity) actions).rejected := by
  intro h
  have hfull : Full (Runs.run step (System.new 0)
      [Action.push () "", .producer (), .producer (), .producer ()]) (0 % 2 ^ 64) 0 :=
    ⟨⟨fun _ => rfl, rfl⟩, rfl, rfl, rfl⟩
  have hlast := hfull.reject_all (2 ^ 64)
  rw [← Runs.run_append] at hlast
  have hcount := h 0 (by decide) _ hlast.idle
  rw [BroadcastQueue.droppedCount, hlast.dropped, hlast.rejected, Nat.zero_add, Nat.mod_self] at hcount
  omega

end CryptoArbBot.Broadcast
