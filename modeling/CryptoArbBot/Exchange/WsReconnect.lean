import CryptoArbBot.Exchange.WsClient

/-!
# The two joins of the reconnect machinery

A handler joins the last reconnect thread before it starts a new one, and
`reconnect_loop` joins the last io thread. A handler that runs while the loop is
not left keeps the loop from being left: both joins wait for each other.
-/

namespace CryptoArbBot

namespace WsClient

/-- Both threads are inside `join()` of the other. -/
def Deadlocked (s : WsClient) : Prop :=
  s.ioThread = .running .joinReconnect ∧ s.reconnectThread = .running .joinIo

/-- No reconnect thread was started, or the last one has left its loop. -/
def LoopLeft (s : WsClient) : Prop := s.reconnectThread = .none ∨ s.reconnectThread = .finished

def InHandler (s : WsClient) : Prop := ∃ place, s.ioThread = .running place ∧ place ≠ .run

def StartsHandler (s : WsClient) : Event → Prop
  | .closed => s.ioThread = .running .run ∧ 0 < s.established
  | .failed => s.ioThread = .running .run ∧ 0 < s.pending
  | _ => False

/-- `on_close` and `on_fail` start only without a reconnect loop. -/
def HandlerAfterLoop (s : WsClient) (event : Event) : Prop := s.StartsHandler event → s.LoopLeft

instance decidableStartsHandler (s : WsClient) : (event : Event) → Decidable (s.StartsHandler event)
  | .closed => inferInstanceAs (Decidable (_ ∧ _))
  | .failed => inferInstanceAs (Decidable (_ ∧ _))
  | .call _ | .setAutoReconnect _ | .caller _ | .destroyMembers | .opened | .handler | .runReturns
  | .callbackThrows | .reconnect _ => inferInstanceAs (Decidable False)

instance (s : WsClient) : Decidable s.Deadlocked := inferInstanceAs (Decidable (_ ∧ _))

instance (s : WsClient) : Decidable s.LoopLeft := inferInstanceAs (Decidable (_ ∨ _))

instance (s : WsClient) (event : Event) : Decidable (s.HandlerAfterLoop event) :=
  inferInstanceAs (Decidable (_ → _))

def HandlerAlone (s : WsClient) : Prop := s.InHandler → s.LoopLeft

theorem HandlerAlone.not_deadlocked {s : WsClient} (h : s.HandlerAlone) : ¬ s.Deadlocked := by
  intro hdeadlocked
  obtain ⟨hio, hreconnect⟩ := hdeadlocked
  have hhandler : s.InHandler := ⟨.joinReconnect, hio, by decide⟩
  rcases h hhandler with hnone | hfinished
  · rw [hreconnect] at hnone
    cases hnone
  · rw [hreconnect] at hfinished
    cases hfinished

theorem handlerAlone_of_not_handler {s : WsClient} (h : ¬ s.InHandler) : s.HandlerAlone :=
  fun hhandler => absurd hhandler h

theorem not_inHandler_none {s : WsClient} (h : s.ioThread = .none) : ¬ s.InHandler := by
  intro hhandler
  obtain ⟨place, hplace, -⟩ := hhandler
  rw [h] at hplace
  cases hplace

theorem not_inHandler_finished {s : WsClient} (h : s.ioThread = .finished) : ¬ s.InHandler := by
  intro hhandler
  obtain ⟨place, hplace, -⟩ := hhandler
  rw [h] at hplace
  cases hplace

theorem not_inHandler_run {s : WsClient} (h : s.ioThread = .running .run) : ¬ s.InHandler := by
  intro hhandler
  obtain ⟨place, hplace, hne⟩ := hhandler
  rw [h] at hplace
  cases hplace
  exact hne rfl

/-! ### One step -/

section Step
variable {s : WsClient}

theorem HandlerAlone.callerStep (h : s.HandlerAlone) (obtained : Bool) :
    (s.callerStep obtained).HandlerAlone := by
  unfold WsClient.callerStep
  cases s.caller
  case joinIo | lastJoinIo =>
    exact Thread.join_rule (fun _ => h) h fun _ => handlerAlone_of_not_handler (not_inHandler_none rfl)
  case assignIo =>
    exact Thread.assign_rule (fun _ => h) fun _ => handlerAlone_of_not_handler (not_inHandler_run rfl)
  case joinReconnect => exact Thread.join_rule (fun _ => h) h fun _ _ => .inl rfl
  all_goals exact h

theorem HandlerAlone.handlerStep (h : s.HandlerAlone) : s.handlerStep.HandlerAlone := by
  unfold WsClient.handlerStep
  cases hio : s.ioThread with
  | none => exact h
  | finished => exact h
  | running place =>
    by_cases hrun : place = .run
    · subst hrun
      exact h
    · -- a handler that goes on leaves the reconnect thread as it is
      have hleft : s.LoopLeft := h ⟨place, hio, hrun⟩
      cases place with
      | run => exact absurd rfl hrun
      | loadAuto => exact fun _ => hleft
      | loadShutdown => exact fun _ => hleft
      | testReconnect => exact fun _ => hleft
      | joinReconnect => exact Thread.join_rule (fun _ => h) h fun _ _ => .inl rfl
      | assignReconnect =>
        exact Thread.assign_rule (fun _ => h) fun _ =>
          handlerAlone_of_not_handler (not_inHandler_run rfl)

/-- While a handler runs the loop is left, so the reconnect thread does nothing. -/
theorem HandlerAlone.reconnectStep (h : s.HandlerAlone) (obtained : Bool) :
    (s.reconnectStep obtained).HandlerAlone := by
  unfold WsClient.reconnectStep
  cases hreconnect : s.reconnectThread with
  | none => exact h
  | finished => exact h
  | running place =>
    have hrun : ¬ s.InHandler := by
      intro hhandler
      rcases h hhandler with hleft | hleft
      · rw [hreconnect] at hleft
        cases hleft
      · rw [hreconnect] at hleft
        cases hleft
    have hstay : ∀ s' : WsClient, s'.ioThread = s.ioThread → s'.HandlerAlone := by
      intro s' hio
      refine handlerAlone_of_not_handler ?_
      intro hhandler
      obtain ⟨place', hplace', hne⟩ := hhandler
      exact hrun ⟨place', hio.symm.trans hplace', hne⟩
    cases place with
    | loadShutdown => exact hstay _ (by dsimp only; split <;> rfl)
    | loadAuto => exact hstay _ (by dsimp only; split <;> rfl)
    | loadConnected => exact hstay _ (by dsimp only; split <;> rfl)
    | backOff => exact hstay _ (by dsimp only; split <;> rfl)
    | reset => exact hstay _ rfl
    | getConnection => exact hstay _ rfl
    | connect => exact hstay _ rfl
    | testIo => exact hstay _ rfl
    | joinIo =>
      exact Thread.join_rule (fun _ => h) h fun _ =>
        handlerAlone_of_not_handler (not_inHandler_none rfl)
    | assignIo =>
      exact Thread.assign_rule (fun _ => h) fun _ => handlerAlone_of_not_handler (not_inHandler_run rfl)
    | wait => exact hstay _ rfl

theorem HandlerAlone.step (h : s.HandlerAlone) {event : Event} (hok : s.HandlerAfterLoop event) :
    (WsClient.step s event).HandlerAlone := by
  unfold WsClient.step
  split
  · exact h
  · cases event with
    | call request => exact call_rule h h h
    | setAutoReconnect enabled => exact setAutoReconnect_rule h h
    | caller obtained => exact h.callerStep obtained
    | destroyMembers => exact destroyMembers_rule h (fun _ _ => h) fun _ => h
    | opened => exact onOpen_rule h fun _ => h
    | closed => exact onClose_rule h fun hclose _ => hok hclose
    | failed => exact onFail_rule h fun hfail _ => hok hfail
    | handler => exact h.handlerStep
    | runReturns =>
      exact runReturns_rule h fun _ => handlerAlone_of_not_handler (not_inHandler_finished rfl)
    | callbackThrows =>
      exact callbackThrows_rule h fun _ => handlerAlone_of_not_handler (not_inHandler_finished rfl)
    | reconnect obtained => exact h.reconnectStep obtained

end Step

/-! ### A handler inside the loop -/

/-- The handler has stored `connected_` and waits for the loop, which stands at `place`. -/
structure Retrying (s : WsClient) (place : ReconnectPlace) : Prop where
  alive : s.terminated = false
  auto : s.autoReconnect = true
  notShuttingDown : s.shuttingDown = false
  notConnected : s.connected = false
  io : s.ioThread = .running .joinReconnect
  reconnect : s.reconnectThread = .running place

def loopSteps (n : ℕ) : List Event := List.replicate n (.reconnect true)

/-- The steps of the loop until it joins the io thread. -/
def ReconnectPlace.untilJoin : ReconnectPlace → ℕ
  | .joinIo | .assignIo => 0
  | .testIo => 1
  | .connect => 2
  | .getConnection => 3
  | .reset => 4
  | .backOff => 5
  | .loadConnected => 6
  | .loadAuto => 7
  | .loadShutdown => 8
  | .wait => 9

theorem Retrying.step {s : WsClient} {place : ReconnectPlace} (h : s.Retrying place)
    (hfar : place.untilJoin ≠ 0) :
    ∃ place', (WsClient.step s (.reconnect true)).Retrying place' ∧ place' ≠ .assignIo ∧
      place.untilJoin = place'.untilJoin + 1 := by
  have hstep : WsClient.step s (.reconnect true) = s.reconnectStep true := by
    simp only [WsClient.step, h.alive, Bool.false_eq_true, if_false]
  rw [hstep, WsClient.reconnectStep, h.reconnect]
  cases place with
  | joinIo => exact absurd rfl hfar
  | assignIo => exact absurd rfl hfar
  | testIo =>
    refine ⟨.joinIo, ⟨h.alive, h.auto, h.notShuttingDown, h.notConnected, h.io, ?_⟩, nofun, rfl⟩
    simp only [h.io, Thread.joinable, if_true]
    rfl
  | connect =>
    exact ⟨.testIo, ⟨h.alive, h.auto, h.notShuttingDown, h.notConnected, h.io, rfl⟩, nofun, rfl⟩
  | getConnection =>
    exact ⟨.connect, ⟨h.alive, h.auto, h.notShuttingDown, h.notConnected, h.io, rfl⟩, nofun, rfl⟩
  | reset =>
    exact ⟨.getConnection, ⟨h.alive, h.auto, h.notShuttingDown, h.notConnected, h.io, rfl⟩, nofun,
      rfl⟩
  | backOff =>
    simp only [h.notShuttingDown, Bool.false_eq_true, if_false]
    exact ⟨.reset, ⟨h.alive, h.auto, rfl, h.notConnected, h.io, rfl⟩, nofun, rfl⟩
  | loadConnected =>
    simp only [h.notConnected, Bool.false_eq_true, if_false]
    exact ⟨.backOff, ⟨h.alive, h.auto, h.notShuttingDown, h.notConnected, h.io, rfl⟩, nofun, rfl⟩
  | loadAuto =>
    simp only [h.auto, if_true]
    exact ⟨.loadConnected, ⟨h.alive, h.auto, h.notShuttingDown, h.notConnected, h.io, rfl⟩, nofun,
      rfl⟩
  | loadShutdown =>
    simp only [h.notShuttingDown, Bool.false_eq_true, if_false]
    exact ⟨.loadAuto, ⟨h.alive, h.auto, h.notShuttingDown, h.notConnected, h.io, rfl⟩, nofun, rfl⟩
  | wait =>
    exact ⟨.loadShutdown, ⟨h.alive, h.auto, h.notShuttingDown, h.notConnected, h.io, rfl⟩, nofun,
      rfl⟩

theorem Retrying.deadlocks {s : WsClient} {place : ReconnectPlace} (h : s.Retrying place)
    (hplace : place ≠ .assignIo) :
    (Runs.run WsClient.step s (loopSteps place.untilJoin)).Deadlocked := by
  induction hn : place.untilJoin generalizing s place with
  | zero =>
    have hjoin : place = .joinIo := by
      cases place with
      | joinIo => rfl
      | assignIo => exact absurd rfl hplace
      | _ => cases hn
    subst hjoin
    exact ⟨h.io, h.reconnect⟩
  | succ n ih =>
    have hfar : place.untilJoin ≠ 0 := by
      rw [hn]
      exact Nat.succ_ne_zero n
    obtain ⟨place', h', hplace', hcount⟩ := h.step hfar
    rw [hn] at hcount
    exact ih h' hplace' (Nat.succ.inj hcount).symm

/-- From every state in which a handler starts inside the loop, a deadlock can be
reached; only a loop that is about to install an io thread terminates instead. -/
theorem deadlock_of_handler_in_loop {s : WsClient} {place : ReconnectPlace} {event : Event}
    (halive : s.terminated = false) (hauto : s.autoReconnect = true)
    (hshutdown : s.shuttingDown = false) (hloop : s.reconnectThread = .running place)
    (hplace : place ≠ .assignIo) (hstart : s.StartsHandler event) :
    ∃ events, (Runs.run WsClient.step (WsClient.step s event) events).Deadlocked := by
  -- the handler finds both flags as they are and a joinable thread
  have hhandler : ∀ s' : WsClient, s'.terminated = false → s'.autoReconnect = true →
      s'.shuttingDown = false → s'.reconnectThread = .running place → s'.connected = false →
      s'.ioThread = .running .loadAuto →
      (Runs.run WsClient.step s' [.handler, .handler, .handler]).Retrying place := by
    intro s' halive' hauto' hshutdown' hloop' hconnected' hio'
    simp only [Runs.run, WsClient.step, WsClient.handlerStep, ioAt, halive', hio', hauto', hshutdown',
      hloop', Thread.joinable, Bool.false_eq_true, if_false, if_true]
    exact ⟨rfl, rfl, rfl, hconnected', rfl, rfl⟩
  have hstarted : (Runs.run WsClient.step (WsClient.step s event)
      [.handler, .handler, .handler]).Retrying place := by
    simp only [WsClient.step, halive, Bool.false_eq_true, if_false]
    cases event with
    | closed =>
      have hclose : s.ioThread = .running .run ∧ 0 < s.established := hstart
      simp only [WsClient.onClose, if_pos hclose]
      exact hhandler _ halive hauto hshutdown hloop rfl rfl
    | failed =>
      have hfail : s.ioThread = .running .run ∧ 0 < s.pending := hstart
      simp only [WsClient.onFail, if_pos hfail]
      exact hhandler _ halive hauto hshutdown hloop rfl rfl
    | _ => exact hstart.elim
  refine ⟨[.handler, .handler, .handler] ++ loopSteps place.untilJoin, ?_⟩
  rw [Runs.run_append]
  exact hstarted.deadlocks hplace

/-- Nothing gets the two threads out of their joins. -/
theorem Deadlocked.step {s : WsClient} (h : s.Deadlocked) (event : Event) :
    (WsClient.step s event).Deadlocked := by
  have hio : ∀ {t : Thread IoPlace}, t ≠ .running .joinReconnect → s.ioThread ≠ t :=
    fun hne heq => hne (heq.symm.trans h.1)
  have hloop : s.reconnectThread ≠ .finished := by
    rw [h.2]
    nofun
  unfold WsClient.step
  split
  · exact h
  · cases event with
    | call request => exact call_rule h h h
    | setAutoReconnect enabled => exact setAutoReconnect_rule h h
    | caller obtained =>
      dsimp only
      unfold WsClient.callerStep
      cases s.caller
      case joinIo | lastJoinIo =>
        exact Thread.join_rule (fun _ => h) h fun hjoined => absurd hjoined (hio nofun)
      case assignIo => exact Thread.assign_rule (fun _ => h) fun hempty => absurd hempty (hio nofun)
      case joinReconnect =>
        exact Thread.join_rule (fun _ => h) h fun hjoined => absurd hjoined hloop
      all_goals exact h
    | destroyMembers => exact destroyMembers_rule h (fun _ _ => h) fun _ => h
    | opened => exact onOpen_rule h fun _ => h
    | closed => exact onClose_rule h fun hclose => absurd hclose.1 (hio nofun)
    | failed => exact onFail_rule h fun hfail => absurd hfail.1 (hio nofun)
    | handler =>
      dsimp only
      rw [WsClient.handlerStep, h.1]
      exact Thread.join_rule (fun _ => h) h fun hjoined => absurd hjoined hloop
    | runReturns => exact runReturns_rule h fun hrun => absurd hrun (hio nofun)
    | callbackThrows =>
      exact callbackThrows_rule h fun hrun => absurd hrun (not_or.mpr ⟨hio nofun, hio nofun⟩)
    | reconnect obtained =>
      dsimp only
      rw [WsClient.reconnectStep, h.2]
      exact Thread.join_rule (fun _ => h) h fun hjoined => absurd hjoined (hio nofun)

theorem Deadlocked.run {s : WsClient} (h : s.Deadlocked) (events : List Event) :
    (Runs.run WsClient.step s events).Deadlocked :=
  Runs.invariant_run (fun _ event hs => hs.step event) events h

/-! ### Runs -/

theorem never_deadlocked {events : List Event}
    (h : Runs.Along step HandlerAfterLoop {} events) :
    Runs.Always step (fun s => ¬ s.Deadlocked) {} events := by
  have hinit : HandlerAlone {} := handlerAlone_of_not_handler (not_inHandler_none rfl)
  have halways : Runs.Always step HandlerAlone {} events :=
    Runs.always_of_along (fun s event hs hok => hs.step hok) hinit h
  exact halways.imp fun s hs => hs.not_deadlocked

/-- The io thread has started a reconnect thread and returned. -/
def firstFailure : List Event :=
  [.call .connect, .caller true, .caller true, .caller true, .caller true,
    .failed, .handler, .handler, .handler, .handler, .runReturns]

/-- The next connection opens before the loop looks, and closes after the loop is left. -/
def reopened : List Event :=
  List.flatten [firstFailure, loopSteps 10, [.opened], loopSteps 4,
    [.closed, .handler, .handler, .handler, .handler, .handler]]

theorem never_deadlocked_reopened :
    Runs.Always step (fun s => ¬ s.Deadlocked) {} reopened := by
  have hok : Runs.Along step HandlerAfterLoop {} reopened := by decide +kernel
  exact never_deadlocked hok

/-- The next connection fails within the two seconds that the loop waits. -/
def failingTwice : List Event :=
  List.flatten [firstFailure, loopSteps 10, [.failed, .handler, .handler, .handler], loopSteps 9]

theorem failingTwice_deadlocks : ¬ ∀ events : List Event, Event.call .disconnect ∉ events →
    (∀ enabled, Event.setAutoReconnect enabled ∉ events) →
    Runs.Always step (fun s => ¬ s.Deadlocked) {} events := by
  intro h
  have hdeadlocked : (Runs.run step {} failingTwice).Deadlocked := by decide +kernel
  exact (h failingTwice (by decide) (by decide)).last hdeadlocked

end WsClient

end CryptoArbBot
