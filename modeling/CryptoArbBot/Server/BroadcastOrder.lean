import CryptoArbBot.Server.BroadcastQueue

/-!
# What the broadcast queue delivers

The invariant reads the indices as positions in the sequence of accepted
messages, so that wrapping around plays no part after the library's lemmas on
slots. It survives every step but a write to a slot that another thread has taken
in the meantime.
-/

namespace CryptoArbBot.Broadcast

variable {ι : Type}

/-! ### The invariant -/

/-- The first accepted message still in its slot. -/
def System.firstHeld (s : System ι) : ℕ :=
  match s.consumer with
  | .idle | .loaded _ | .checked _ => s.popped.length
  | .moved _ _ => s.popped.length + 1

def PopPhase.Sound (s : System ι) : PopPhase → Prop
  | .idle => True
  | .loaded curTail => curTail = s.queue.tail
  | .checked curTail => curTail = s.queue.tail ∧ s.popped.length < s.accepted.length
  | .moved curTail msg => curTail = s.queue.tail ∧ s.accepted[s.popped.length]? = some msg

/-- A producer that has written its slot holds the next position. -/
def PushPhase.Sound (s : System ι) : PushPhase → Prop
  | .idle | .full => True
  | .loaded _ curHead => curHead < s.queue.capacity
  | .checked _ curHead nextHead =>
    curHead < s.queue.capacity ∧ nextHead = s.queue.next curHead
  | .written message nextHead =>
    nextHead = (s.accepted.length + 1) % s.queue.capacity ∧
      s.accepted.length + 1 < s.popped.length + s.queue.capacity ∧
      s.queue.buffer[s.accepted.length % s.queue.capacity]? = some message

def PushPhase.IsWritten : PushPhase → Prop
  | .idle | .full | .loaded _ _ | .checked _ _ _ => False
  | .written _ _ => True

structure Inv (s : System ι) : Prop where
  capacity : 2 ≤ s.queue.capacity ∧ s.queue.capacity < 2 ^ 64
  slots : s.queue.buffer.length = s.queue.capacity
  head : s.queue.head = s.accepted.length % s.queue.capacity
  tail : s.queue.tail = s.popped.length % s.queue.capacity
  order : s.popped <+: s.accepted
  room : s.accepted.length < s.popped.length + s.queue.capacity
  window : Ring.Window s.queue.capacity s.queue.buffer s.accepted s.firstHeld s.accepted.length
  consumer : PopPhase.Sound s s.consumer
  producers : ∀ i, PushPhase.Sound s (s.producers i)
  lone : ∀ i j, (s.producers i).IsWritten → (s.producers j).IsWritten → i = j
  dropped : s.queue.dropped = s.rejected % 2 ^ 64

theorem Inv.new {capacity : ℕ} (hcap : capacity < 2 ^ 64 - 1) :
    Inv (System.new capacity : System ι) := by
  have hnowrap : (capacity + 1) % 2 ^ 64 = capacity + 1 := Nat.mod_eq_of_lt (by omega)
  have hcapacity : (System.new capacity : System ι).queue.capacity = max (capacity + 1) 2 := by
    show max ((capacity + 1) % 2 ^ 64) 2 = _
    rw [hnowrap]
  refine ⟨?_, List.length_replicate, (Nat.zero_mod _).symm, (Nat.zero_mod _).symm,
    List.nil_prefix, ?_, Ring.Window.empty, trivial, fun _ => trivial, ?_, rfl⟩
  · rw [hcapacity]
    omega
  · rw [hcapacity]
    show 0 < 0 + max (capacity + 1) 2
    omega
  · intro i j hi
    cases hi

variable {s : System ι}

theorem Inv.next_eq (h : Inv s) {k : ℕ} : s.queue.next (k % s.queue.capacity) =
    (k + 1) % s.queue.capacity := by
  have hlt : k % s.queue.capacity < s.queue.capacity := Nat.mod_lt _ (by have := h.capacity; omega)
  have hnowrap : (k % s.queue.capacity + 1) % 2 ^ 64 = k % s.queue.capacity + 1 :=
    Nat.mod_eq_of_lt (by have := h.capacity; omega)
  unfold BroadcastQueue.next
  rw [hnowrap, Nat.mod_add_mod]

theorem Inv.length_le (h : Inv s) : s.popped.length ≤ s.accepted.length := h.order.length_le

theorem Inv.next_head_eq_tail (h : Inv s) : s.queue.next s.queue.head = s.queue.tail ↔
    s.accepted.length + 1 = s.popped.length + s.queue.capacity := by
  rw [h.head, h.next_eq, h.tail]
  exact Ring.slot_full_iff h.length_le h.room

theorem Inv.tail_eq_head (h : Inv s) :
    s.queue.tail = s.queue.head ↔ s.popped.length = s.accepted.length := by
  rw [h.head, h.tail]
  exact Ring.slot_eq_iff h.length_le h.room

/-- With no call in progress and with any, `size()` is read off the positions. -/
theorem Inv.size_eq (h : Inv s) : s.queue.size = s.accepted.length - s.popped.length := by
  unfold BroadcastQueue.size
  rw [h.head, h.tail]
  exact Ring.slot_distance h.length_le h.room

/-! ### One step -/

/-- No other thread has moved the head or holds a written slot when a producer
writes, and the ring is not full. -/
def WriteUncontended (s : System ι) : Action ι → Prop
  | .producer i =>
    match s.producers i with
    | .checked _ curHead nextHead =>
      curHead = s.queue.head ∧ nextHead ≠ s.queue.tail ∧ ∀ j, ¬ (s.producers j).IsWritten
    | .idle | .full | .loaded _ _ | .written _ _ => True
  | .push _ _ | .pop | .consumer _ => True

theorem PushPhase.IsWritten.exists {phase : PushPhase} (h : phase.IsWritten) :
    ∃ message nextHead, phase = .written message nextHead := by
  cases phase with
  | written message nextHead => exact ⟨message, nextHead, rfl⟩
  | idle => cases h
  | full => cases h
  | loaded message curHead => cases h
  | checked message curHead nextHead => cases h

theorem PushPhase.Sound.transfer {t : System ι} (hcap : t.queue.capacity = s.queue.capacity)
    {phase : PushPhase} (h : phase.Sound s) (hw : phase.IsWritten → phase.Sound t) :
    phase.Sound t := by
  cases phase with
  | idle => trivial
  | full => trivial
  | loaded message curHead =>
    show curHead < t.queue.capacity
    rw [hcap]
    exact h
  | checked message curHead nextHead =>
    show curHead < t.queue.capacity ∧ nextHead = (curHead + 1) % 2 ^ 64 % t.queue.capacity
    rw [hcap]
    exact h
  | written message nextHead => exact hw trivial

theorem Inv.forall_not_written (h : Inv s) {i j : ι} (hi : (s.producers i).IsWritten) (hj : j ≠ i) :
    ¬ (s.producers j).IsWritten := fun hw => hj (h.lone j i hw hi)

/-- A consumer that moves on without touching a slot or an index. -/
theorem Inv.setConsumer (h : Inv s) {phase : PopPhase} (hsound : phase.Sound s)
    (hheld : ({ s with consumer := phase } : System ι).firstHeld = s.firstHeld) :
    Inv { s with consumer := phase } := by
  refine ⟨h.capacity, h.slots, h.head, h.tail, h.order, h.room, ?_, hsound, h.producers, h.lone,
    h.dropped⟩
  rw [hheld]
  exact h.window

theorem Inv.take (h : Inv s) {curTail : ℕ} (hc : s.consumer = .checked curTail) (left : String) :
    Inv (s.tryPop left) := by
  have hsound : PopPhase.Sound s s.consumer := h.consumer
  rw [hc] at hsound
  obtain ⟨htail, hlt⟩ := hsound
  have hslot : curTail = s.popped.length % s.queue.capacity := htail.trans h.tail
  have hbound : curTail < s.queue.buffer.length := by
    rw [h.slots, hslot]
    exact Nat.mod_lt _ (by have := h.capacity; omega)
  have hwindow : Ring.Window s.queue.capacity s.queue.buffer s.accepted s.popped.length
      s.accepted.length := by
    have := h.window
    rwa [System.firstHeld, hc] at this
  -- the slot of the first message still holds it
  have hread : s.accepted[s.popped.length]? = some (s.queue.buffer.getD curTail "") := by
    rw [← hwindow s.popped.length le_rfl hlt, ← hslot, List.getD_eq_getElem?_getD,
      List.getElem?_eq_getElem hbound]
    rfl
  simp only [System.tryPop, hc]
  refine ⟨h.capacity, (List.length_set ..).trans h.slots, h.head, h.tail, h.order, h.room, ?_,
    ⟨htail, hread⟩, ?_, h.lone, h.dropped⟩
  · show Ring.Window s.queue.capacity (s.queue.buffer.set curTail left) s.accepted
      (s.popped.length + 1) s.accepted.length
    rw [hslot]
    exact hwindow.tail.set_before (by have := h.room; omega) left
  · intro i
    refine (h.producers i).transfer ?_ fun hw => ?_
    · rfl
    · obtain ⟨message, nextHead, hi⟩ := hw.exists
      have hpush : PushPhase.Sound s (s.producers i) := h.producers i
      rw [hi] at hpush
      obtain ⟨hnext, hroom, hheld⟩ := hpush
      -- its slot is not the one being read
      have hne : curTail ≠ s.accepted.length % s.queue.capacity := by
        rw [hslot]
        intro heq
        have := (Ring.slot_eq_iff (by omega) (by omega)).mp heq
        omega
      rw [hi]
      exact ⟨hnext, hroom, (List.getElem?_set_ne hne).trans hheld⟩

theorem Inv.release (h : Inv s) {curTail : ℕ} {msg : String} (hc : s.consumer = .moved curTail msg)
    (left : String) : Inv (s.tryPop left) := by
  have hsound : PopPhase.Sound s s.consumer := h.consumer
  rw [hc] at hsound
  obtain ⟨htail, hmsg⟩ := hsound
  have hlt : s.popped.length < s.accepted.length := (List.getElem?_eq_some_iff.mp hmsg).1
  have hlength : (s.popped ++ [msg]).length = s.popped.length + 1 := by simp
  have hroom := h.room
  simp only [System.tryPop, hc]
  refine ⟨h.capacity, h.slots, h.head, ?_, ?_, ?_, ?_, trivial, ?_, h.lone, h.dropped⟩
  · show s.queue.next curTail = (s.popped ++ [msg]).length % s.queue.capacity
    rw [hlength, htail, h.tail]
    exact h.next_eq
  · obtain ⟨rest, hrest⟩ := h.order
    have hhead : rest[0]? = some msg := by
      rw [← hrest, List.getElem?_append_right le_rfl, Nat.sub_self] at hmsg
      exact hmsg
    cases rest with
    | nil => simp at hhead
    | cons first rest =>
      have hfirst : first = msg := by simpa using hhead
      refine ⟨rest, ?_⟩
      rw [List.append_assoc, List.singleton_append, ← hfirst]
      exact hrest
  · show s.accepted.length < (s.popped ++ [msg]).length + s.queue.capacity
    omega
  · have hwindow := h.window
    rw [System.firstHeld, hc] at hwindow
    show Ring.Window _ _ _ (s.popped ++ [msg]).length _
    rw [hlength]
    exact hwindow
  · intro i
    refine (h.producers i).transfer ?_ fun hw => ?_
    · rfl
    · obtain ⟨message, nextHead, hi⟩ := hw.exists
      have hpush : PushPhase.Sound s (s.producers i) := h.producers i
      rw [hi] at hpush
      obtain ⟨hnext, hfree, hheld⟩ := hpush
      rw [hi]
      refine ⟨hnext, ?_, hheld⟩
      show s.accepted.length + 1 < (s.popped ++ [msg]).length + s.queue.capacity
      omega

theorem Inv.tryPop (h : Inv s) (left : String) : Inv (s.tryPop left) := by
  have hsound : PopPhase.Sound s s.consumer := h.consumer
  cases hc : s.consumer with
  | idle =>
    simp only [System.tryPop, hc]
    exact h
  | loaded curTail =>
    rw [hc] at hsound
    have htail : curTail = s.queue.tail := hsound
    simp only [System.tryPop, hc]
    split
    · exact h.setConsumer trivial (by simp only [System.firstHeld, hc])
    · rename_i hne
      have hlen : s.popped.length ≠ s.accepted.length := fun heq =>
        hne (htail.trans (h.tail_eq_head.mpr heq))
      have := h.length_le
      exact h.setConsumer ⟨htail, by omega⟩ (by simp only [System.firstHeld, hc])
  | checked curTail => exact h.take hc left
  | moved curTail msg => exact h.release hc left

variable [DecidableEq ι]

/-- A producer that moves on without touching a slot or an index. -/
theorem Inv.setProducer (h : Inv s) {i : ι} {phase : PushPhase} (hsound : phase.Sound s)
    (hw : ¬ phase.IsWritten) : Inv (s.setProducer i phase) := by
  refine ⟨h.capacity, h.slots, h.head, h.tail, h.order, h.room, h.window, h.consumer, ?_, ?_,
    h.dropped⟩
  · refine (Function.forall_update_iff _ fun _ phase => PushPhase.Sound s phase).mpr ?_
    exact ⟨hsound, fun j _ => h.producers j⟩
  · intro j k hj hk
    have hne : ∀ l, (Function.update s.producers i phase l).IsWritten → (s.producers l).IsWritten :=
      (Function.forall_update_iff _
        fun l (phase : PushPhase) => phase.IsWritten → (s.producers l).IsWritten).mpr
        ⟨fun hphase => absurd hphase hw, fun _ _ hl => hl⟩
    exact h.lone j k (hne j hj) (hne k hk)

theorem Inv.write (h : Inv s) {i : ι} {message : String} {nextHead : ℕ}
    (hi : s.producers i = .checked message s.queue.head nextHead)
    (hroom : nextHead ≠ s.queue.tail) (hlone : ∀ j, ¬ (s.producers j).IsWritten) :
    Inv (s.tryPush i) := by
  have hsound : PushPhase.Sound s (s.producers i) := h.producers i
  rw [hi] at hsound
  obtain ⟨hslot, hnext⟩ := hsound
  have hfree : s.accepted.length + 1 ≠ s.popped.length + s.queue.capacity := by
    intro hfull
    exact hroom (hnext.trans (h.next_head_eq_tail.mpr hfull))
  have hheld : s.accepted.length < s.firstHeld + s.queue.capacity := by
    have := h.room
    unfold System.firstHeld
    split <;> omega
  simp only [System.tryPush, hi]
  refine ⟨h.capacity, ?_, h.head, h.tail, h.order, h.room, ?_, ?_, ?_, ?_, h.dropped⟩
  · exact (List.length_set ..).trans h.slots
  · show Ring.Window _ (s.queue.buffer.set s.queue.head message) _ _ _
    rw [h.head]
    exact h.window.set_outside le_rfl hheld message
  · exact h.consumer
  · refine (Function.forall_update_iff _ fun _ (phase : PushPhase) => phase.Sound _).mpr ⟨?_, ?_⟩
    · refine ⟨?_, ?_, ?_⟩
      · rw [hnext, h.head]
        exact h.next_eq
      · have := h.room
        show s.accepted.length + 1 < s.popped.length + s.queue.capacity
        omega
      · show (s.queue.buffer.set s.queue.head message)[s.accepted.length % s.queue.capacity]? = _
        rw [← h.head]
        exact List.getElem?_set_self (h.slots ▸ hslot)
    · intro j _
      refine (h.producers j).transfer ?_ fun hw => absurd hw (hlone j)
      rfl
  · intro j k hj hk
    have hwriter : ∀ l, (Function.update s.producers i (.written message nextHead) l).IsWritten →
        l = i := by
      refine (Function.forall_update_iff _ fun l (phase : PushPhase) => phase.IsWritten → l = i).mpr
        ⟨fun _ => rfl, fun l _ hl => absurd hl (hlone l)⟩
    rw [hwriter j hj, hwriter k hk]

theorem Inv.publish (h : Inv s) {i : ι} {message : String} {nextHead : ℕ}
    (hi : s.producers i = .written message nextHead) : Inv (s.tryPush i) := by
  have hsound : PushPhase.Sound s (s.producers i) := h.producers i
  rw [hi] at hsound
  obtain ⟨hnext, hroom, hslot⟩ := hsound
  have hwritten : (s.producers i).IsWritten := by
    rw [hi]
    trivial
  have hlength : (s.accepted ++ [message]).length = s.accepted.length + 1 := by simp
  have hothers : ∀ l, ¬ (Function.update s.producers i .idle l).IsWritten :=
    (Function.forall_update_iff _ fun _ (phase : PushPhase) => ¬ phase.IsWritten).mpr
      ⟨fun hidle => hidle, fun l hl => h.forall_not_written hwritten hl⟩
  simp only [System.tryPush, hi]
  refine ⟨h.capacity, h.slots, ?_, h.tail, h.order.trans (List.prefix_append ..), ?_,
    h.window.push hslot, ?_, ?_, ?_, h.dropped⟩
  · show nextHead = (s.accepted ++ [message]).length % s.queue.capacity
    rw [hlength]
    exact hnext
  · show (s.accepted ++ [message]).length < s.popped.length + s.queue.capacity
    rw [hlength]
    exact hroom
  · show PopPhase.Sound _ s.consumer
    have hpop : PopPhase.Sound s s.consumer := h.consumer
    cases hc : s.consumer with
    | idle => trivial
    | loaded curTail =>
      rw [hc] at hpop
      exact hpop
    | checked curTail =>
      rw [hc] at hpop
      obtain ⟨htail, hlt⟩ := hpop
      refine ⟨htail, ?_⟩
      show s.popped.length < (s.accepted ++ [message]).length
      omega
    | moved curTail msg =>
      rw [hc] at hpop
      obtain ⟨htail, hmsg⟩ := hpop
      have hlt : s.popped.length < s.accepted.length := (List.getElem?_eq_some_iff.mp hmsg).1
      exact ⟨htail, (List.getElem?_append_left hlt).trans hmsg⟩
  · refine (Function.forall_update_iff _ fun _ (phase : PushPhase) => phase.Sound _).mpr
      ⟨trivial, ?_⟩
    intro j hj
    refine (h.producers j).transfer ?_ fun hw => absurd hw (h.forall_not_written hwritten hj)
    rfl
  · intro j k hj
    exact absurd hj (hothers j)

theorem Inv.tryPush (h : Inv s) {i : ι} (hok : WriteUncontended s (.producer i)) :
    Inv (s.tryPush i) := by
  have hsound : PushPhase.Sound s (s.producers i) := h.producers i
  cases hi : s.producers i with
  | idle =>
    simp only [System.tryPush, hi]
    exact h
  | loaded message curHead =>
    rw [hi] at hsound
    simp only [System.tryPush, hi]
    split
    · exact h.setProducer trivial fun hw => hw
    · exact h.setProducer ⟨hsound, rfl⟩ fun hw => hw
  | full =>
    have hset : Inv (s.setProducer i .idle) := h.setProducer trivial fun hw => hw
    simp only [System.tryPush, hi]
    refine ⟨hset.capacity, hset.slots, hset.head, hset.tail, hset.order, hset.room, hset.window,
      hset.consumer, hset.producers, hset.lone, ?_⟩
    show (s.queue.dropped + 1) % 2 ^ 64 = (s.rejected + 1) % 2 ^ 64
    rw [h.dropped, Nat.mod_add_mod]
  | checked message curHead nextHead =>
    simp only [WriteUncontended, hi] at hok
    obtain ⟨hhead, hroom, hlone⟩ := hok
    rw [hhead] at hi
    exact h.write hi hroom hlone
  | written message nextHead => exact h.publish hi

theorem Inv.step (h : Inv s) {a : Action ι} (hok : WriteUncontended s a) : Inv (step s a) := by
  cases a with
  | push i message =>
    simp only [Broadcast.step]
    split
    · refine h.setProducer ?_ fun hw => hw
      show s.queue.head < s.queue.capacity
      rw [h.head]
      exact Nat.mod_lt _ (by have := h.capacity; omega)
    · exact h
  | producer i => exact h.tryPush hok
  | pop =>
    simp only [Broadcast.step]
    split
    · rename_i hidle
      have hloaded : PopPhase.Sound s (.loaded s.queue.tail) := rfl
      exact h.setConsumer hloaded (by simp only [System.firstHeld, hidle])
    · exact h
  | consumer left => exact h.tryPop left

end CryptoArbBot.Broadcast
