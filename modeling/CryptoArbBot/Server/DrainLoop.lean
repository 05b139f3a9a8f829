import CryptoArbBot.Server.SingleProducer
import Mathlib.Data.List.Sort

/-!
# The drain thread of the dashboard server (server/ws_server.cpp)

`drain_loop` pops one message after another, sends it to every connection under the
shared lock and afterwards closes the connections whose sends keep failing. `on_open`
and `on_close` wait for the lock. The pop of a message, one send and one close are
steps of their own, and the queue runs beside them step by step.
-/

namespace CryptoArbBot.Broadcast

/-- Where the drain thread stands: before a pop, in the loop over the connections with
the lock held, or in the loop over `to_close`. -/
inductive DrainPhase (κ : Type) where
  | polling
  | sending (msg : String) (left toClose : List κ)
  | closing (toClose : List κ)

/-- Beside the server the messages drained while a client was connected are kept, the
sends to it with their results, and the closes with the number of sends before. -/
structure DrainServer (ι κ : Type) where
  queue : System ι
  connections : List κ := []
  failCounts : κ → ℕ := fun _ => 0
  phase : DrainPhase κ := .polling
  drained : ℕ := 0
  owed : κ → List String := fun _ => []
  sends : κ → List (String × Bool) := fun _ => []
  closes : List (κ × ℕ) := []

inductive DrainEvent (ι κ : Type) where
  | queue (a : Action ι)
  /-- `try_pop` has returned a message; the lock is taken. -/
  | take
  | send (ok : Bool)
  | close
  | opened (hdl : κ)
  | closed (hdl : κ)

namespace DrainServer

variable {ι κ : Type} [DecidableEq ι] [LinearOrder κ]

def polling (s : DrainServer ι κ) : Bool :=
  match s.phase with
  | .polling => true
  | .sending _ _ _ | .closing _ => false

def locked (s : DrainServer ι κ) : Bool :=
  match s.phase with
  | .sending _ _ _ => true
  | .polling | .closing _ => false

/-- The drain thread calls `try_pop` when it has nothing else to do. -/
def queueStep (s : DrainServer ι κ) : Action ι → DrainServer ι κ
  | .pop =>
    if s.polling ∧ s.queue.popped.length = s.drained then
      { s with queue := Broadcast.step s.queue .pop }
    else s
  | a => { s with queue := Broadcast.step s.queue a }

def take (s : DrainServer ι κ) : DrainServer ι κ :=
  match s.phase, s.queue.popped[s.drained]? with
  | .polling, some msg =>
    { s with
      phase := .sending msg s.connections []
      drained := s.drained + 1
      owed := fun hdl => if hdl ∈ s.connections then s.owed hdl ++ [msg] else s.owed hdl }
  | _, _ => s

def recordSend (s : DrainServer ι κ) (msg : String) (hdl : κ) (left toClose : List κ) :
    Bool → DrainServer ι κ
  | true =>
    { s with
      failCounts := Function.update s.failCounts hdl 0
      sends := Function.update s.sends hdl (s.sends hdl ++ [(msg, true)])
      phase := .sending msg left toClose }
  | false =>
    { s with
      failCounts := Function.update s.failCounts hdl (s.failCounts hdl + 1)
      sends := Function.update s.sends hdl (s.sends hdl ++ [(msg, false)])
      phase := .sending msg left
        (if s.failCounts hdl + 1 ≥ 3 then toClose ++ [hdl] else toClose) }

def sendNext (s : DrainServer ι κ) (ok : Bool) : DrainServer ι κ :=
  match s.phase with
  | .sending msg (hdl :: left) toClose => s.recordSend msg hdl left toClose ok
  | .sending _ [] toClose => { s with phase := .closing toClose }
  | .polling | .closing _ => s

def closeNext (s : DrainServer ι κ) : DrainServer ι κ :=
  match s.phase with
  | .closing (hdl :: toClose) =>
    { s with
      phase := .closing toClose
      closes := s.closes ++ [(hdl, (s.sends hdl).length)] }
  | .closing [] => { s with phase := .polling }
  | .polling | .sending _ _ _ => s

def onOpen (s : DrainServer ι κ) (hdl : κ) : DrainServer ι κ :=
  if s.locked ∨ hdl ∈ s.connections then s
  else { s with connections := s.connections.orderedInsert (· ≤ ·) hdl }

def onClose (s : DrainServer ι κ) (hdl : κ) : DrainServer ι κ :=
  if s.locked then s else { s with connections := s.connections.erase hdl }

def step (s : DrainServer ι κ) : DrainEvent ι κ → DrainServer ι κ
  | .queue a => s.queueStep a
  | .take => s.take
  | .send ok => s.sendNext ok
  | .close => s.closeNext
  | .opened hdl => s.onOpen hdl
  | .closed hdl => s.onClose hdl

end DrainServer

/-! ### Failures in a row -/

def outcomes (sends : List (String × Bool)) : List Bool := sends.map Prod.snd

theorem outcomes_concat (sends : List (String × Bool)) (msg : String) (ok : Bool) :
    outcomes (sends ++ [(msg, ok)]) = outcomes sends ++ [ok] :=
  List.map_append

/-- Exactly the last `n` sends have failed. -/
structure FailedLast (results : List Bool) (n : ℕ) : Prop where
  le : n ≤ results.length
  failed : ∀ j, results.length ≤ j + n → j < results.length → results[j]? = some false
  before : ∀ j, j + n + 1 = results.length → results[j]? = some true

/-- The send that makes `k` of them and the two before it have failed. -/
def ThirdFailure (results : List Bool) (k : ℕ) : Prop :=
  3 ≤ k ∧ ∀ j, k ≤ j + 3 → j < k → results[j]? = some false

theorem failedLast_nil : FailedLast [] 0 := by
  refine ⟨le_rfl, ?_, ?_⟩
  · intro j _ hj
    cases hj
  · intro j hj
    simp at hj

theorem getElem?_concat {α : Type} (xs : List α) (x : α) (j : ℕ) :
    (xs ++ [x])[j]? = if j = xs.length then some x else xs[j]? := by
  by_cases hj : j = xs.length
  · rw [if_pos hj, hj, List.getElem?_concat_length]
  · rw [if_neg hj]
    rcases Nat.lt_or_gt_of_ne hj with hlt | hgt
    · exact List.getElem?_append_left hlt
    · rw [List.getElem?_eq_none (by simp; omega), List.getElem?_eq_none (by omega)]

theorem failedLast_concat_true (results : List Bool) : FailedLast (results ++ [true]) 0 := by
  refine ⟨Nat.zero_le _, ?_, ?_⟩
  · intro j hge hlt
    omega
  · intro j hj
    rw [List.length_append, List.length_singleton] at hj
    rw [getElem?_concat, if_pos (by omega)]

theorem FailedLast.concat_false {results : List Bool} {n : ℕ} (h : FailedLast results n) :
    FailedLast (results ++ [false]) (n + 1) := by
  have hlen : (results ++ [false]).length = results.length + 1 := by simp
  refine ⟨by rw [hlen]; have := h.le; omega, ?_, ?_⟩
  · intro j hge hlt
    rw [hlen] at hge hlt
    rw [getElem?_concat]
    split
    · rfl
    next hne => exact h.failed j (by omega) (by omega)
  · intro j hj
    rw [hlen] at hj
    rw [getElem?_concat, if_neg (by omega)]
    exact h.before j (by omega)

theorem ThirdFailure.le {results : List Bool} {k : ℕ} (h : ThirdFailure results k) :
    k ≤ results.length := by
  obtain ⟨hk, hfailed⟩ := h
  have hlast := hfailed (k - 1) (by omega) (by omega)
  have hlt := (List.getElem?_eq_some_iff.mp hlast).1
  omega

theorem not_thirdFailure_nil (k : ℕ) : ¬ ThirdFailure [] k := by
  intro h
  have hle := h.le
  have hk := h.1
  simp only [List.length_nil] at hle
  omega

theorem thirdFailure_true {results : List Bool} (k : ℕ) :
    ThirdFailure (results ++ [true]) k ↔ ThirdFailure results k := by
  constructor
  · intro h
    refine ⟨h.1, fun j hge hlt => ?_⟩
    have hj := h.2 j hge hlt
    rw [getElem?_concat] at hj
    split at hj
    · cases hj
    · exact hj
  · intro h
    refine ⟨h.1, fun j hge hlt => ?_⟩
    have hle := h.le
    rw [getElem?_concat, if_neg (by omega)]
    exact h.2 j hge hlt

theorem FailedLast.thirdFailure_false {results : List Bool} {n : ℕ} (h : FailedLast results n)
    (k : ℕ) :
    ThirdFailure (results ++ [false]) k ↔
      ThirdFailure results k ∨ (k = results.length + 1 ∧ n + 1 ≥ 3) := by
  constructor
  · intro hthird
    have hle := hthird.le
    rw [List.length_append, List.length_singleton] at hle
    by_cases hk : k = results.length + 1
    · refine .inr ⟨hk, ?_⟩
      by_contra hn
      have hlen := hthird.1
      have hbefore := h.before (results.length - n - 1) (by omega)
      have hfailed := hthird.2 (results.length - n - 1) (by omega) (by omega)
      rw [getElem?_concat, if_neg (by omega), hbefore] at hfailed
      cases hfailed
    · refine .inl ⟨hthird.1, fun j hge hlt => ?_⟩
      have hj := hthird.2 j hge hlt
      rwa [getElem?_concat, if_neg (by omega)] at hj
  · rintro (hold | ⟨rfl, hn⟩)
    · refine ⟨hold.1, fun j hge hlt => ?_⟩
      have hle := hold.le
      rw [getElem?_concat, if_neg (by omega)]
      exact hold.2 j hge hlt
    · have hlen := h.le
      refine ⟨by omega, fun j hge hlt => ?_⟩
      rw [getElem?_concat]
      split
      · rfl
      next hne => exact h.failed j (by omega) (by omega)

/-! ### The invariant -/

namespace DrainServer

variable {ι κ : Type} [LinearOrder κ]

def toClose (s : DrainServer ι κ) : List κ :=
  match s.phase with
  | .polling => []
  | .sending _ _ toClose | .closing toClose => toClose

/-- What the loop over the connections still has to send to a client. -/
def due (s : DrainServer ι κ) (hdl : κ) : List String :=
  match s.phase with
  | .sending msg left _ => if hdl ∈ left then [msg] else []
  | .polling | .closing _ => []

structure Inv (s : DrainServer ι κ) : Prop where
  nodup : s.connections.Nodup
  counts : ∀ hdl, FailedLast (outcomes (s.sends hdl)) (s.failCounts hdl)
  owed : ∀ hdl, s.owed hdl = (s.sends hdl).map Prod.fst ++ s.due hdl
  drained : s.drained ≤ s.queue.popped.length
  sublist : ∀ hdl, (s.owed hdl).Sublist (s.queue.popped.take s.drained)
  left : ∀ msg left toClose, s.phase = .sending msg left toClose →
    left.Nodup ∧ ∀ hdl ∈ toClose, hdl ∉ left
  closes : ∀ hdl k, (hdl, k) ∈ s.closes ∨ (hdl ∈ s.toClose ∧ k = (s.sends hdl).length) ↔
    ThirdFailure (outcomes (s.sends hdl)) k

variable {s : DrainServer ι κ}

theorem inv_new (q : System ι) : Inv ({ queue := q } : DrainServer ι κ) := by
  refine ⟨.nil, fun _ => failedLast_nil, fun _ => rfl, Nat.zero_le _, fun _ => .slnil, nofun, ?_⟩
  intro hdl k
  exact iff_of_false (by simp [toClose]) (not_thirdFailure_nil k)

theorem Inv.take (h : Inv s) : Inv s.take := by
  unfold DrainServer.take
  split
  next msg hphase hmsg =>
    have hlt : s.drained < s.queue.popped.length := (List.getElem?_eq_some_iff.mp hmsg).1
    have htake : s.queue.popped.take (s.drained + 1) = s.queue.popped.take s.drained ++ [msg] := by
      rw [List.take_add_one, hmsg]
      rfl
    have hdue : ∀ hdl, s.due hdl = [] := fun hdl => by rw [due, hphase]
    have htoClose : s.toClose = [] := by rw [toClose, hphase]
    refine ⟨h.nodup, h.counts, ?_, hlt, ?_, ?_, ?_⟩
    · intro hdl
      have howed := h.owed hdl
      rw [hdue, List.append_nil] at howed
      simp only [due]
      split
      · rw [howed]
      · rw [howed, List.append_nil]
    · intro hdl
      dsimp only
      rw [htake]
      split
      · exact (h.sublist hdl).append_right _
      · exact (h.sublist hdl).trans (List.sublist_append_left _ _)
    · rintro _ _ _ hsame
      cases hsame
      exact ⟨h.nodup, nofun⟩
    · intro hdl k
      have hcloses := h.closes hdl k
      rw [htoClose] at hcloses
      exact hcloses
  next => exact h

theorem Inv.closeNext (h : Inv s) : Inv s.closeNext := by
  unfold DrainServer.closeNext
  split
  next hdl toClose' hphase =>
    have hdue : ∀ other, s.due other = [] := fun other => by rw [due, hphase]
    have htoClose : s.toClose = hdl :: toClose' := by rw [toClose, hphase]
    refine ⟨h.nodup, h.counts, fun other => ?_, h.drained, h.sublist, nofun, ?_⟩
    · rw [h.owed other, hdue]
      rfl
    · intro other k
      rw [← h.closes other k, htoClose, List.mem_append, List.mem_singleton, List.mem_cons,
        Prod.mk.injEq]
      show ((other, k) ∈ s.closes ∨ other = hdl ∧ k = (s.sends hdl).length) ∨
        (other ∈ toClose' ∧ k = (s.sends other).length) ↔ _
      constructor
      · rintro ((hold | ⟨rfl, hk⟩) | ⟨hmem, hk⟩)
        · exact .inl hold
        · exact .inr ⟨.inl rfl, hk⟩
        · exact .inr ⟨.inr hmem, hk⟩
      · rintro (hold | ⟨rfl | hmem, hk⟩)
        · exact .inl (.inl hold)
        · exact .inl (.inr ⟨rfl, hk⟩)
        · exact .inr ⟨hmem, hk⟩
  next hphase =>
    have hdue : ∀ other, s.due other = [] := fun other => by rw [due, hphase]
    have htoClose : s.toClose = [] := by rw [toClose, hphase]
    refine ⟨h.nodup, h.counts, fun other => ?_, h.drained, h.sublist, nofun, ?_⟩
    · rw [h.owed other, hdue]
      rfl
    · intro other k
      rw [← h.closes other k, htoClose]
      exact Iff.rfl
  next => exact h
  next => exact h

/-- One send, with the counter that goes with its result. -/
theorem Inv.recordSend (h : Inv s) {msg : String} {hdl : κ} {left toClose' : List κ}
    (hphase : s.phase = .sending msg (hdl :: left) toClose') (ok : Bool) :
    Inv (s.recordSend msg hdl left toClose' ok) := by
  obtain ⟨hnodup, hapart⟩ := h.left _ _ _ hphase
  obtain ⟨hnew, hleft⟩ := List.nodup_cons.mp hnodup
  have hfresh : hdl ∉ toClose' := fun hmem => hapart hdl hmem (List.mem_cons_self ..)
  have htoClose : s.toClose = toClose' := by rw [toClose, hphase]
  have hrest : ∀ other ∈ toClose', other ∉ left :=
    fun other hmem hin => hapart other hmem (List.mem_cons_of_mem _ hin)
  have howed : ∀ other, s.owed other =
      (Function.update s.sends hdl (s.sends hdl ++ [(msg, ok)]) other).map Prod.fst ++
        if other ∈ left then [msg] else [] := by
    intro other
    rw [h.owed other, due, hphase]
    dsimp only
    by_cases hother : other = hdl
    · subst hother
      rw [Function.update_self, if_neg hnew, if_pos (List.mem_cons_self ..), List.map_append,
        List.append_nil]
      rfl
    · rw [Function.update_of_ne hother]
      simp only [List.mem_cons, hother, false_or]
  cases ok with
  | true =>
    refine ⟨h.nodup, ?_, howed, h.drained, h.sublist, ?_, ?_⟩
    · refine (Function.forall_update_iff _ fun c n => FailedLast (outcomes (Function.update s.sends hdl
        (s.sends hdl ++ [(msg, true)]) c)) n).mpr ⟨?_, ?_⟩
      · rw [Function.update_self, outcomes_concat]
        exact failedLast_concat_true _
      · intro other hother
        rw [Function.update_of_ne hother]
        exact h.counts other
    · rintro _ _ _ hsame
      cases hsame
      exact ⟨hleft, hrest⟩
    · intro other k
      have hold := h.closes other k
      rw [htoClose] at hold
      show (other, k) ∈ s.closes ∨ (other ∈ toClose' ∧
        k = (Function.update s.sends hdl (s.sends hdl ++ [(msg, true)]) other).length) ↔ _
      by_cases hother : other = hdl
      · subst hother
        simp only [DrainServer.recordSend, Function.update_self]
        rw [outcomes_concat, thirdFailure_true, ← hold]
        simp only [hfresh, false_and]
      · simp only [DrainServer.recordSend, Function.update_of_ne hother]
        exact hold
  | false =>
    refine ⟨h.nodup, ?_, ?_, h.drained, h.sublist, ?_, ?_⟩
    · refine (Function.forall_update_iff _ fun c n => FailedLast (outcomes (Function.update s.sends hdl
        (s.sends hdl ++ [(msg, false)]) c)) n).mpr ⟨?_, ?_⟩
      · rw [Function.update_self, outcomes_concat]
        exact (h.counts hdl).concat_false
      · intro other hother
        rw [Function.update_of_ne hother]
        exact h.counts other
    · exact howed
    · rintro _ _ _ hsame
      cases hsame
      refine ⟨hleft, ?_⟩
      intro other hmem
      split at hmem
      · rcases List.mem_append.mp hmem with hold | hlast
        · exact hrest other hold
        · rw [List.mem_singleton.mp hlast]
          exact hnew
      · exact hrest other hmem
    · intro other k
      have hold := h.closes other k
      rw [htoClose] at hold
      show (other, k) ∈ s.closes ∨
        (other ∈ (if s.failCounts hdl + 1 ≥ 3 then toClose' ++ [hdl] else toClose') ∧
          k = (Function.update s.sends hdl (s.sends hdl ++ [(msg, false)]) other).length) ↔ _
      by_cases hother : other = hdl
      · subst hother
        simp only [DrainServer.recordSend, Function.update_self]
        rw [outcomes_concat, (h.counts other).thirdFailure_false, ← hold]
        by_cases hthird : s.failCounts other + 1 ≥ 3
        · simp [hthird, hfresh, outcomes]
        · simp [hthird, hfresh]
      · simp only [DrainServer.recordSend, Function.update_of_ne hother]
        rw [← hold]
        split
        · simp [hother]
        · exact Iff.rfl

theorem Inv.sendNext (h : Inv s) (ok : Bool) : Inv (s.sendNext ok) := by
  unfold DrainServer.sendNext
  split
  next hphase => exact h.recordSend hphase ok
  next msg toClose' hphase =>
    have hdue : ∀ hdl, s.due hdl = [] := by
      intro hdl
      rw [due, hphase]
      exact if_neg (List.not_mem_nil)
    have htoClose : s.toClose = toClose' := by rw [toClose, hphase]
    refine ⟨h.nodup, h.counts, fun hdl => ?_, h.drained, h.sublist, nofun, ?_⟩
    · rw [h.owed hdl, hdue]
      rfl
    · intro hdl k
      rw [← h.closes hdl k, htoClose]
      exact Iff.rfl
  next => exact h
  next => exact h

theorem Inv.setConnections (h : Inv s) {connections : List κ} (hnodup : connections.Nodup) :
    Inv { s with connections := connections } :=
  ⟨hnodup, h.counts, h.owed, h.drained, h.sublist, h.left, h.closes⟩

theorem Inv.onOpen (h : Inv s) (hdl : κ) : Inv (s.onOpen hdl) := by
  unfold DrainServer.onOpen
  split
  · exact h
  next hfree =>
    have hnew : hdl ∉ s.connections := fun hmem => hfree (.inr hmem)
    have hperm := List.perm_orderedInsert (· ≤ ·) hdl s.connections
    exact h.setConnections (hperm.nodup_iff.mpr (List.nodup_cons.mpr ⟨hnew, h.nodup⟩))

theorem Inv.onClose (h : Inv s) (hdl : κ) : Inv (s.onClose hdl) := by
  unfold DrainServer.onClose
  split
  · exact h
  · exact h.setConnections (h.nodup.erase hdl)

variable [DecidableEq ι]

theorem popped_step (q : System ι) (a : Action ι) : q.popped <+: (Broadcast.step q a).popped := by
  cases a with
  | push i message =>
    simp only [Broadcast.step]
    split
    · exact List.prefix_refl _
    · exact List.prefix_refl _
  | pop =>
    simp only [Broadcast.step]
    split
    · exact List.prefix_refl _
    · exact List.prefix_refl _
  | producer i =>
    simp only [Broadcast.step, System.tryPush]
    cases q.producers i with
    | idle => exact List.prefix_refl _
    | loaded message curHead =>
      dsimp only
      split
      · exact List.prefix_refl _
      · exact List.prefix_refl _
    | full => exact List.prefix_refl _
    | checked message curHead nextHead => exact List.prefix_refl _
    | written message nextHead => exact List.prefix_refl _
  | consumer left =>
    simp only [Broadcast.step, System.tryPop]
    cases q.consumer with
    | idle => exact List.prefix_refl _
    | loaded curTail =>
      dsimp only
      split
      · exact List.prefix_refl _
      · exact List.prefix_refl _
    | checked curTail => exact List.prefix_refl _
    | moved curTail msg => exact List.prefix_append _ _

theorem Inv.setQueue (h : Inv s) (a : Action ι) :
    Inv { s with queue := Broadcast.step s.queue a } := by
  obtain ⟨more, hmore⟩ := popped_step s.queue a
  have hlen : s.drained ≤ (Broadcast.step s.queue a).popped.length := by
    rw [← hmore, List.length_append]
    have := h.drained
    omega
  have htake : (Broadcast.step s.queue a).popped.take s.drained = s.queue.popped.take s.drained := by
    rw [← hmore, List.take_append_of_le_length h.drained]
  exact ⟨h.nodup, h.counts, h.owed, hlen, fun hdl => htake ▸ h.sublist hdl, h.left, h.closes⟩

theorem Inv.queueStep (h : Inv s) (a : Action ι) : Inv (s.queueStep a) := by
  cases a with
  | pop =>
    simp only [DrainServer.queueStep]
    split
    · exact h.setQueue .pop
    · exact h
  | push i message => exact h.setQueue _
  | producer i => exact h.setQueue _
  | consumer left => exact h.setQueue _

theorem Inv.step (h : Inv s) (e : DrainEvent ι κ) : Inv (s.step e) := by
  cases e with
  | queue a => exact h.queueStep a
  | take => exact h.take
  | send ok => exact h.sendNext ok
  | close => exact h.closeNext
  | opened hdl => exact h.onOpen hdl
  | closed hdl => exact h.onClose hdl

theorem inv_run (q : System ι) (events : List (DrainEvent ι κ)) :
    Inv (Runs.run step { queue := q } events) :=
  Runs.invariant_run (I := Inv) (fun _ e hs => Inv.step hs e) events (inv_new q)

end DrainServer

end CryptoArbBot.Broadcast
