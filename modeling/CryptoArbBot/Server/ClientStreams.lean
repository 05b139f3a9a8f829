import CryptoArbBot.Server.DrainLoop

/-!
# What a dashboard client is sent

Between two moments at which no message is being sent, `server_.send` is called for a
connected client with the messages drained in between, in the order in which the queue
accepted them, and a client is closed at every call that fails after two others.
-/

namespace CryptoArbBot.Broadcast

namespace DrainServer

variable {ι κ : Type} {s : DrainServer ι κ}

/-- The steps that drain no message keep what is drained and what is owed. -/
structure SameStream (s t : DrainServer ι κ) : Prop where
  queue : t.queue = s.queue
  drained : t.drained = s.drained
  owed : t.owed = s.owed

theorem sameStream_closeNext : SameStream s s.closeNext := by
  unfold closeNext
  split
  · exact ⟨rfl, rfl, rfl⟩
  · exact ⟨rfl, rfl, rfl⟩
  · exact ⟨rfl, rfl, rfl⟩
  · exact ⟨rfl, rfl, rfl⟩

theorem connections_closeNext : s.closeNext.connections = s.connections := by
  unfold closeNext
  split
  · rfl
  · rfl
  · rfl
  · rfl

/-- A client connected since `first` messages were drained is owed those drained since. -/
structure Streams (hdl : κ) (first : ℕ) (before : List String) (s : DrainServer ι κ) : Prop where
  connected : hdl ∈ s.connections
  since : first ≤ s.drained
  drained : s.drained ≤ s.queue.popped.length
  owed : s.owed hdl = before ++ (s.queue.popped.take s.drained).drop first

variable {hdl : κ} {first : ℕ} {before : List String}

theorem Streams.same (h : Streams hdl first before s) {t : DrainServer ι κ} (hsame : SameStream s t)
    (hconnected : hdl ∈ t.connections) : Streams hdl first before t := by
  obtain ⟨hqueue, hdrained, howed⟩ := hsame
  refine ⟨hconnected, ?_, ?_, ?_⟩
  · rw [hdrained]
    exact h.since
  · rw [hdrained, hqueue]
    exact h.drained
  · rw [howed, hdrained, hqueue]
    exact h.owed

theorem Streams.setQueue [DecidableEq ι] (h : Streams hdl first before s) (a : Action ι) :
    Streams hdl first before { s with queue := Broadcast.step s.queue a } := by
  obtain ⟨more, hmore⟩ := popped_step s.queue a
  have hdrained := h.drained
  refine ⟨h.connected, h.since, ?_, ?_⟩
  · show s.drained ≤ (Broadcast.step s.queue a).popped.length
    rw [← hmore, List.length_append]
    omega
  · show s.owed hdl = before ++ ((Broadcast.step s.queue a).popped.take s.drained).drop first
    rw [← hmore, List.take_append_of_le_length hdrained]
    exact h.owed

variable [LinearOrder κ]

theorem sameStream_sendNext (ok : Bool) : SameStream s (s.sendNext ok) := by
  unfold sendNext
  split
  · cases ok with
    | true => exact ⟨rfl, rfl, rfl⟩
    | false => exact ⟨rfl, rfl, rfl⟩
  · exact ⟨rfl, rfl, rfl⟩
  · exact ⟨rfl, rfl, rfl⟩
  · exact ⟨rfl, rfl, rfl⟩

theorem connections_sendNext (ok : Bool) : (s.sendNext ok).connections = s.connections := by
  unfold sendNext
  split
  · cases ok with
    | true => rfl
    | false => rfl
  · rfl
  · rfl
  · rfl

theorem sameStream_onOpen (hdl : κ) : SameStream s (s.onOpen hdl) := by
  unfold onOpen
  split
  · exact ⟨rfl, rfl, rfl⟩
  · exact ⟨rfl, rfl, rfl⟩

theorem mem_onOpen {hdl : κ} (other : κ) (h : hdl ∈ s.connections) :
    hdl ∈ (s.onOpen other).connections := by
  unfold onOpen
  split
  · exact h
  · exact (List.mem_orderedInsert (· ≤ ·)).mpr (.inr h)

theorem sameStream_onClose (hdl : κ) : SameStream s (s.onClose hdl) := by
  unfold onClose
  split
  · exact ⟨rfl, rfl, rfl⟩
  · exact ⟨rfl, rfl, rfl⟩

theorem mem_onClose {hdl other : κ} (hother : other ≠ hdl) (h : hdl ∈ s.connections) :
    hdl ∈ (s.onClose other).connections := by
  unfold onClose
  split
  · exact h
  · exact (List.mem_erase_of_ne hother.symm).mpr h

theorem Streams.take (h : Streams hdl first before s) : Streams hdl first before s.take := by
  unfold DrainServer.take
  split
  next msg _ hmsg =>
    have hlt : s.drained < s.queue.popped.length := (List.getElem?_eq_some_iff.mp hmsg).1
    refine ⟨h.connected, Nat.le_succ_of_le h.since, hlt, ?_⟩
    calc (if hdl ∈ s.connections then s.owed hdl ++ [msg] else s.owed hdl)
        = s.owed hdl ++ [msg] := if_pos h.connected
      _ = before ++ ((s.queue.popped.take s.drained).drop first ++ [msg]) := by
        rw [h.owed, List.append_assoc]
      _ = before ++ (s.queue.popped.take (s.drained + 1)).drop first := by
        rw [List.take_add_one, hmsg, List.drop_append_of_le_length]
        · rfl
        · rw [List.length_take]
          have := h.since
          omega
  next => exact h

variable [DecidableEq ι]

theorem Streams.step (h : Streams hdl first before s) {e : DrainEvent ι κ} (he : e ≠ .closed hdl) :
    Streams hdl first before (s.step e) := by
  cases e with
  | queue a =>
    cases a with
    | pop =>
      simp only [DrainServer.step, queueStep]
      split
      · exact h.setQueue .pop
      · exact h
    | push i message => exact h.setQueue _
    | producer i => exact h.setQueue _
    | consumer left => exact h.setQueue _
  | take => exact h.take
  | send ok =>
    have hconnected : hdl ∈ (s.sendNext ok).connections := by
      rw [connections_sendNext]
      exact h.connected
    exact h.same (sameStream_sendNext ok) hconnected
  | close =>
    have hconnected : hdl ∈ s.closeNext.connections := by
      rw [connections_closeNext]
      exact h.connected
    exact h.same sameStream_closeNext hconnected
  | opened other => exact h.same (sameStream_onOpen other) (mem_onOpen other h.connected)
  | closed other =>
    have hother : other ≠ hdl := fun heq => he (heq ▸ rfl)
    exact h.same (sameStream_onClose other) (mem_onClose hother h.connected)

/-- The queue moves by its own step or not at all. -/
theorem queue_step (s : DrainServer ι κ) (e : DrainEvent ι κ) :
    (s.step e).queue = s.queue ∨
      ∃ a, e = .queue a ∧ (s.step e).queue = Broadcast.step s.queue a := by
  cases e with
  | queue a =>
    cases a with
    | pop =>
      simp only [step, queueStep]
      split
      · exact .inr ⟨.pop, rfl, rfl⟩
      · exact .inl rfl
    | push i message => exact .inr ⟨_, rfl, rfl⟩
    | producer i => exact .inr ⟨_, rfl, rfl⟩
    | consumer left => exact .inr ⟨_, rfl, rfl⟩
  | take =>
    simp only [step, DrainServer.take]
    split
    · exact .inl rfl
    · exact .inl rfl
  | send ok => exact .inl (sameStream_sendNext ok).queue
  | close => exact .inl sameStream_closeNext.queue
  | opened hdl => exact .inl (sameStream_onOpen hdl).queue
  | closed hdl => exact .inl (sameStream_onClose hdl).queue

/-- The drain thread and the connections only add calls of `try_pop` to a run of the queue. -/
theorem queue_run (s : DrainServer ι κ) (events : List (DrainEvent ι κ)) :
    ∃ actions, (Runs.run step s events).queue = Runs.run Broadcast.step s.queue actions := by
  refine Runs.invariant_run
    (I := fun t : DrainServer ι κ => ∃ actions, t.queue = Runs.run Broadcast.step s.queue actions)
    ?_ events ⟨[], rfl⟩
  rintro t e ⟨actions, hactions⟩
  rcases queue_step t e with hsame | ⟨a, -, hstep⟩
  · exact ⟨actions, hsame.trans hactions⟩
  · refine ⟨actions ++ [a], ?_⟩
    rw [hstep, Runs.run_append, ← hactions]
    rfl

/-- The condition under which the queue delivers what several threads push. -/
def Uncontended (s : DrainServer ι κ) : DrainEvent ι κ → Prop
  | .queue a => WriteUncontended s.queue a
  | .take | .send _ | .close | .opened _ | .closed _ => True

theorem queueInv_step {e : DrainEvent ι κ} (h : Broadcast.Inv s.queue) (hok : s.Uncontended e) :
    Broadcast.Inv (s.step e).queue := by
  rcases queue_step s e with hsame | ⟨a, rfl, hstep⟩
  · rw [hsame]
    exact h
  · rw [hstep]
    exact h.step hok

theorem popped_prefix {capacity : ℕ} (hcap : capacity < 2 ^ 64 - 1) {events : List (DrainEvent ι κ)}
    (hok : Runs.Along DrainServer.step Uncontended { queue := System.new capacity } events) :
    let t := Runs.run DrainServer.step { queue := System.new capacity } events
    t.queue.popped <+: t.queue.accepted := by
  have hinv := Runs.invariant_along (I := fun t : DrainServer ι κ => Broadcast.Inv t.queue)
    (fun s e h hok => queueInv_step h hok) (Inv.new hcap) hok
  exact hinv.order

omit [DecidableEq ι] in
theorem Inv.attempted (h : Inv s) (hfree : s.locked = false) (hdl : κ) :
    (s.sends hdl).map Prod.fst = s.owed hdl := by
  have hdue : s.due hdl = [] := by
    rw [due]
    rw [locked] at hfree
    cases hphase : s.phase with
    | polling => rfl
    | sending msg left toClose =>
      rw [hphase] at hfree
      cases hfree
    | closing toClose => rfl
  rw [h.owed hdl, hdue, List.append_nil]

end DrainServer

open DrainServer

variable {κ : Type} [LinearOrder κ]

theorem sends_between {ι : Type} [DecidableEq ι] {capacity : ℕ}
    (before after : List (DrainEvent ι κ)) (hdl : κ) {s t : DrainServer ι κ}
    (hs : s = Runs.run DrainServer.step { queue := System.new capacity } before)
    (ht : t = Runs.run DrainServer.step s after) (horder : t.queue.popped <+: t.queue.accepted)
    (hconnected : hdl ∈ s.connections) (hstays : .closed hdl ∉ after) (hfree : s.locked = false)
    (hfree' : t.locked = false) :
    (t.sends hdl).map Prod.fst =
      (s.sends hdl).map Prod.fst ++ (t.queue.accepted.take t.drained).drop s.drained := by
  have hall : t = Runs.run DrainServer.step { queue := System.new capacity } (before ++ after) := by
    rw [Runs.run_append, ← hs, ht]
  have hinv : DrainServer.Inv s := hs ▸ inv_run (System.new capacity) before
  have hinvt : DrainServer.Inv t := hall ▸ inv_run (System.new capacity) (before ++ after)
  have hnone : (s.queue.popped.take s.drained).drop s.drained = [] := by
    rw [List.drop_eq_nil_iff, List.length_take]
    omega
  have hstart : Streams hdl s.drained ((s.sends hdl).map Prod.fst) s := by
    refine ⟨hconnected, le_rfl, hinv.drained, ?_⟩
    rw [hnone, List.append_nil, hinv.attempted hfree]
  have hend : Streams hdl s.drained ((s.sends hdl).map Prod.fst) t := by
    rw [ht]
    exact Runs.invariant_run_mem (fun _ e he hstream => hstream.step fun heq => hstays (heq ▸ he))
      hstart
  obtain ⟨more, hmore⟩ := horder
  rw [hinvt.attempted hfree', hend.owed, ← hmore, List.take_append_of_le_length hinvt.drained]

/-- A client connected at both moments and never closed in between. -/
theorem client_stream {capacity : ℕ} (hcap : capacity < 2 ^ 64 - 1)
    (before after : List (DrainEvent Unit κ)) (hdl : κ) :
    let s := Runs.run DrainServer.step { queue := System.new capacity } before
    let t := Runs.run DrainServer.step s after
    hdl ∈ s.connections → .closed hdl ∉ after → s.locked = false → t.locked = false →
      (t.sends hdl).map Prod.fst =
        (s.sends hdl).map Prod.fst ++ (t.queue.accepted.take t.drained).drop s.drained := by
  intro s t
  have hall : t = Runs.run DrainServer.step { queue := System.new capacity } (before ++ after) :=
    (Runs.run_append _ _ _ _).symm
  obtain ⟨actions, hactions⟩ := queue_run (κ := κ) { queue := System.new capacity } (before ++ after)
  have horder : t.queue.popped <+: t.queue.accepted := by
    rw [hall, hactions]
    exact (Single.run hcap actions).1.order
  exact sends_between before after hdl rfl rfl horder

/-- One message through the queue to a single client. -/
def oneMessage (message : String) : List (DrainEvent Unit ℕ) :=
  [.queue (.push () message), .queue (.producer ()), .queue (.producer ()), .queue (.producer ()),
    .queue .pop, .queue (.consumer ""), .queue (.consumer ""), .queue (.consumer ""),
    .take, .send true, .send true]

theorem client_stream_one :
    let s := Runs.run DrainServer.step { queue := System.new 2 } [DrainEvent.opened 0]
    let t := Runs.run DrainServer.step s (oneMessage "a")
    (t.sends 0).map Prod.fst =
      (s.sends 0).map Prod.fst ++ (t.queue.accepted.take t.drained).drop s.drained :=
  client_stream (by decide) [.opened 0] (oneMessage "a") 0 (by decide) (by simp [oneMessage]) rfl rfl

theorem slow_clients_closed {ι : Type} [DecidableEq ι] (capacity : ℕ)
    (events : List (DrainEvent ι κ)) (hdl : κ) :
    let s := Runs.run DrainServer.step { queue := System.new capacity } events
    ((s.sends hdl).map Prod.fst).Sublist s.queue.popped ∧
      (s.polling = true → ∀ k, (hdl, k) ∈ s.closes ↔ ThirdFailure (outcomes (s.sends hdl)) k) := by
  intro s
  have hinv : DrainServer.Inv s := inv_run (System.new capacity) events
  constructor
  · have hsent : ((s.sends hdl).map Prod.fst).Sublist (s.owed hdl) := by
      rw [hinv.owed hdl]
      exact List.sublist_append_left _ _
    exact (hsent.trans (hinv.sublist hdl)).trans (List.take_sublist _ _)
  · intro hpolling k
    have htoClose : s.toClose = [] := by
      rw [polling] at hpolling
      rw [toClose]
      cases hphase : s.phase with
      | polling => rfl
      | sending msg left toClose =>
        rw [hphase] at hpolling
        cases hpolling
      | closing toClose =>
        rw [hphase] at hpolling
        cases hpolling
    have hcloses := hinv.closes hdl k
    rw [htoClose] at hcloses
    simpa only [List.not_mem_nil, false_and, or_false] using hcloses

end CryptoArbBot.Broadcast
