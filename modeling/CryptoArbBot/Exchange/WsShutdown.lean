import CryptoArbBot.Exchange.WsReconnect

/-!
# Shutdown of the WebSocket client

`disconnect` joins the io thread before the reconnect thread. A loop that has a
connection at that time installs another io thread behind it.
-/

namespace CryptoArbBot

namespace WsClient

/-- The loop has a connection that no io thread was started for yet. -/
def ReconnectPlace.installing : ReconnectPlace → Bool
  | .connect | .testIo | .joinIo | .assignIo => true
  | .loadShutdown | .loadAuto | .loadConnected | .backOff | .reset | .getConnection | .wait => false

def InstallPending (s : WsClient) : Prop :=
  ∃ place, s.reconnectThread = .running place ∧ place.installing = true

/-- `disconnect` has tested `io_thread_.joinable()`. -/
def CallerPlace.pastIoTest : CallerPlace → Bool
  | .lastJoinIo | .testReconnect | .joinReconnect | .storeConnected | .returned => true
  | .idle | .getConnection | .connect | .testIo | .joinIo | .assignIo | .storeAuto | .close | .stop
  | .lastTestIo | .destroyed => false

def CallerPlace.pastIoJoin : CallerPlace → Bool
  | .testReconnect | .joinReconnect | .storeConnected | .returned => true
  | .idle | .getConnection | .connect | .testIo | .joinIo | .assignIo | .storeAuto | .close | .stop
  | .lastTestIo | .lastJoinIo | .destroyed => false

def CallerPlace.pastReconnectJoin : CallerPlace → Bool
  | .storeConnected | .returned => true
  | .idle | .getConnection | .connect | .testIo | .joinIo | .assignIo | .storeAuto | .close | .stop
  | .lastTestIo | .lastJoinIo | .testReconnect | .joinReconnect | .destroyed => false

theorem CallerPlace.pastIoTest_of_pastIoJoin {place : CallerPlace} (h : place.pastIoJoin = true) :
    place.pastIoTest = true := by
  cases place <;> first | rfl | cases h

theorem CallerPlace.pastIoJoin_of_pastReconnectJoin {place : CallerPlace}
    (h : place.pastReconnectJoin = true) : place.pastIoJoin = true := by
  cases place <;> first | rfl | cases h

/-- The step calls `client_.connect`. -/
def StartsAttempt (s : WsClient) : Event → Prop
  | .caller _ => s.caller = .connect
  | .reconnect _ => s.reconnectThread = .running .connect
  | _ => False

/-- Nothing of the client runs or can be joined, only a new call can start a
connection attempt, and destroying the client does not terminate. -/
structure ShutDown (s : WsClient) : Prop where
  io : s.ioThread = .none
  reconnect : s.reconnectThread = .none
  noAttempt : ∀ events : List Event, (∀ request, Event.call request ∉ events) →
    Runs.Along step (fun s event => ¬ s.StartsAttempt event) s events
  destroyed : (step s .destroyMembers).terminated = false

/-- When `disconnect` tests `io_thread_` no installation is pending, and from then
on `get_connection` gives the loop no connection. -/
def InstallsInTime (s : WsClient) : Event → Prop
  | .caller _ => s.caller = .lastTestIo → ¬ s.InstallPending
  | .reconnect obtained =>
    s.reconnectThread = .running .getConnection → obtained = true → s.caller.pastIoTest = false
  | _ => True

instance (s : WsClient) : Decidable s.InstallPending :=
  match h : s.reconnectThread with
  | .running place =>
    decidable_of_iff (place.installing = true)
      ⟨fun hplace => ⟨place, h, hplace⟩, fun ⟨place', hplace', hinstalling⟩ => by
        rw [h] at hplace'
        cases hplace'
        exact hinstalling⟩
  | .none => .isFalse fun ⟨_, hplace, _⟩ => by rw [h] at hplace; cases hplace
  | .finished => .isFalse fun ⟨_, hplace, _⟩ => by rw [h] at hplace; cases hplace

instance (s : WsClient) : (event : Event) → Decidable (s.InstallsInTime event)
  | .caller _ => inferInstanceAs (Decidable (_ → _))
  | .reconnect _ => inferInstanceAs (Decidable (_ → _ → _))
  | .call _ | .setAutoReconnect _ | .destroyMembers | .opened | .closed | .failed | .handler
  | .runReturns | .callbackThrows => inferInstanceAs (Decidable True)

/-! ### What holds while `disconnect` runs -/

structure Disconnecting (s : WsClient) : Prop where
  installed : s.caller.pastIoTest = true → ¬ s.InstallPending
  io : s.caller.pastIoJoin = true → s.ioThread = .none
  alive : s.caller.pastIoJoin = true → s.terminated = false
  joiningIo : s.caller = .lastJoinIo → s.ioThread ≠ .none
  joiningReconnect : s.caller = .joinReconnect → s.reconnectThread ≠ .none
  reconnect : s.caller.pastReconnectJoin = true → s.reconnectThread = .none

section Step
variable {s s' : WsClient}

theorem disconnecting_of_before (h : s.caller.pastIoTest = false) : s.Disconnecting := by
  have htest : s.caller.pastIoTest ≠ true := Bool.eq_false_iff.mp h
  have hjoin : s.caller.pastIoJoin ≠ true :=
    fun hpast => htest (CallerPlace.pastIoTest_of_pastIoJoin hpast)
  have hreconnect : s.caller.pastReconnectJoin ≠ true :=
    fun hpast => hjoin (CallerPlace.pastIoJoin_of_pastReconnectJoin hpast)
  constructor
  · exact fun hpast => absurd hpast htest
  · exact fun hpast => absurd hpast hjoin
  · exact fun hpast => absurd hpast hjoin
  · intro hplace
    rw [hplace] at htest
    exact absurd rfl htest
  · intro hplace
    rw [hplace] at htest
    exact absurd rfl htest
  · exact fun hpast => absurd hpast hreconnect

/-- A step of the io thread that makes no installation pending. -/
theorem Disconnecting.ioMoves (h : s.Disconnecting) (hio : s.ioThread ≠ .none)
    (hio' : s'.ioThread ≠ .none) (hcaller : s'.caller = s.caller)
    (hinstall : s'.InstallPending → s.InstallPending) : s'.Disconnecting := by
  -- `disconnect` has not joined it, so only the first field says something
  have hjoin : s'.caller.pastIoJoin ≠ true := by
    rw [hcaller]
    exact fun hpast => hio (h.io hpast)
  constructor
  · intro hpast hpending
    rw [hcaller] at hpast
    exact h.installed hpast (hinstall hpending)
  · exact fun hpast => absurd hpast hjoin
  · exact fun hpast => absurd hpast hjoin
  · exact fun _ => hio'
  · intro hplace
    rw [hplace] at hjoin
    exact absurd rfl hjoin
  · exact fun hpast => absurd (CallerPlace.pastIoJoin_of_pastReconnectJoin hpast) hjoin

theorem Disconnecting.reconnectMoves (h : s.Disconnecting) (hreconnect : s.reconnectThread ≠ .none)
    (hcaller : s'.caller = s.caller) (hio : s'.ioThread = s.ioThread)
    (hterminated : s'.terminated = s.terminated) (hjoinable : s'.reconnectThread ≠ .none)
    (hinstall : ¬ s'.InstallPending) : s'.Disconnecting := by
  constructor
  · exact fun _ => hinstall
  · intro hpast
    rw [hcaller] at hpast
    rw [hio, h.io hpast]
  · intro hpast
    rw [hcaller] at hpast
    rw [hterminated, h.alive hpast]
  · intro hplace
    rw [hcaller] at hplace
    rw [hio]
    exact h.joiningIo hplace
  · exact fun _ => hjoinable
  · intro hpast
    rw [hcaller] at hpast
    exact absurd (h.reconnect hpast) hreconnect

theorem reconnectStep_caller (s : WsClient) (obtained : Bool) :
    (s.reconnectStep obtained).caller = s.caller := by
  unfold WsClient.reconnectStep
  cases s.reconnectThread with
  | none => rfl
  | finished => rfl
  | running place =>
    cases place
    case joinIo =>
      exact Thread.join_rule (Q := fun s' : WsClient => s'.caller = s.caller) (fun _ => rfl) rfl
        fun _ => rfl
    case assignIo =>
      exact Thread.assign_rule (Q := fun s' : WsClient => s'.caller = s.caller) (fun _ => rfl)
        fun _ => rfl
    case loadShutdown | loadAuto | loadConnected | backOff =>
      dsimp only
      split
      · rfl
      · rfl
    all_goals rfl

theorem not_installPending_finished (h : s.reconnectThread = .finished) : ¬ s.InstallPending := by
  intro hpending
  obtain ⟨place, hplace, -⟩ := hpending
  rw [h] at hplace
  cases hplace

theorem not_installPending_none (h : s.reconnectThread = .none) : ¬ s.InstallPending := by
  intro hpending
  obtain ⟨place, hplace, -⟩ := hpending
  rw [h] at hplace
  cases hplace

theorem not_installPending_at {place : ReconnectPlace} (h : s.reconnectThread = .running place)
    (hplace : place.installing = false) : ¬ s.InstallPending := by
  intro hpending
  obtain ⟨place', hplace', hinstalling⟩ := hpending
  rw [h] at hplace'
  cases hplace'
  exact absurd hinstalling (Bool.eq_false_iff.mp hplace)

theorem Disconnecting.reconnectStep (h : s.Disconnecting) {obtained : Bool}
    (hok : s.InstallsInTime (.reconnect obtained)) : (s.reconnectStep obtained).Disconnecting := by
  by_cases hpast : s.caller.pastIoTest = true
  · have hnot := h.installed hpast
    unfold WsClient.reconnectStep
    cases hreconnect : s.reconnectThread with
    | none => exact h
    | finished => exact h
    | running place =>
      have hjoinable : s.reconnectThread ≠ .none := by
        rw [hreconnect]
        nofun
      have hto : ∀ place', place'.installing = false → (s.reconnectAt place').Disconnecting :=
        fun place' hplace' => h.reconnectMoves hjoinable rfl rfl rfl nofun
          (not_installPending_at rfl hplace')
      have hleave : s.leaveLoop.Disconnecting :=
        h.reconnectMoves hjoinable rfl rfl rfl nofun (not_installPending_finished rfl)
      cases place with
      | connect => exact absurd ⟨_, hreconnect, rfl⟩ hnot
      | testIo => exact absurd ⟨_, hreconnect, rfl⟩ hnot
      | joinIo => exact absurd ⟨_, hreconnect, rfl⟩ hnot
      | assignIo => exact absurd ⟨_, hreconnect, rfl⟩ hnot
      | getConnection =>
        have hnone : obtained = false := by
          by_contra hobtained
          rw [hok hreconnect (eq_true_of_ne_false hobtained)] at hpast
          cases hpast
        rw [hnone]
        exact hto .loadShutdown rfl
      | loadShutdown =>
        dsimp only
        split
        · exact hleave
        · exact hto _ rfl
      | loadAuto =>
        dsimp only
        split
        · exact hto _ rfl
        · exact hleave
      | loadConnected =>
        dsimp only
        split
        · exact hleave
        · exact hto _ rfl
      | backOff =>
        dsimp only
        split
        · exact hleave
        · exact h.reconnectMoves hjoinable rfl rfl rfl nofun (not_installPending_at rfl rfl)
      | reset => exact h.reconnectMoves hjoinable rfl rfl rfl nofun (not_installPending_at rfl rfl)
      | wait => exact hto _ rfl
  · refine disconnecting_of_before ?_
    rw [reconnectStep_caller]
    exact Bool.eq_false_iff.mpr hpast

theorem Disconnecting.handlerStep (h : s.Disconnecting) : s.handlerStep.Disconnecting := by
  unfold WsClient.handlerStep
  cases hio : s.ioThread with
  | none => exact h
  | finished => exact h
  | running place =>
    have hrunning : s.ioThread ≠ .none := by
      rw [hio]
      nofun
    cases place with
    | run => exact h
    | loadAuto => exact h.ioMoves hrunning nofun rfl id
    | loadShutdown => exact h.ioMoves hrunning nofun rfl id
    | testReconnect => exact h.ioMoves hrunning nofun rfl id
    | joinReconnect =>
      exact Thread.join_rule (fun _ => h.ioMoves hrunning hrunning rfl id) h fun _ =>
        h.ioMoves hrunning nofun rfl fun hpending => absurd hpending (not_installPending_none rfl)
    | assignReconnect =>
      exact Thread.assign_rule (fun _ => h.ioMoves hrunning hrunning rfl id) fun _ =>
        h.ioMoves hrunning nofun rfl fun hpending => absurd hpending (not_installPending_at rfl rfl)

theorem Disconnecting.callerStep (h : s.Disconnecting) (halive : s.terminated = false)
    {obtained : Bool} (hok : s.InstallsInTime (.caller obtained)) :
    (s.callerStep obtained).Disconnecting := by
  have hbefore : s.caller.pastIoTest = false → { s with terminated := true }.Disconnecting :=
    fun hplace => @disconnecting_of_before { s with terminated := true } hplace
  unfold WsClient.callerStep
  cases hcaller : s.caller with
  | idle => exact h
  | returned => exact h
  | destroyed => exact h
  | getConnection => exact disconnecting_of_before (by cases obtained <;> rfl)
  | connect => exact disconnecting_of_before rfl
  | testIo => exact disconnecting_of_before (by cases s.ioThread <;> rfl)
  | joinIo =>
    exact Thread.join_rule (fun _ => hbefore (by rw [hcaller]; rfl)) h fun _ => disconnecting_of_before rfl
  | assignIo =>
    exact Thread.assign_rule (fun _ => hbefore (by rw [hcaller]; rfl)) fun _ => disconnecting_of_before rfl
  | storeAuto => exact disconnecting_of_before rfl
  | close => exact disconnecting_of_before rfl
  | stop => exact disconnecting_of_before rfl
  | lastTestIo =>
    have hnot : ¬ s.InstallPending := hok hcaller
    dsimp only
    split
    next hjoinable =>
      have hio : s.ioThread ≠ .none := Thread.joinable_iff.mp hjoinable
      exact ⟨fun _ => hnot, nofun, nofun, fun _ => hio, nofun, nofun⟩
    next hjoinable =>
      have hio : s.ioThread = .none := Thread.not_joinable_iff.mp hjoinable
      exact ⟨fun _ => hnot, fun _ => hio, fun _ => halive, nofun, nofun, nofun⟩
  | lastJoinIo =>
    have hnot : ¬ s.InstallPending := h.installed (by rw [hcaller]; rfl)
    exact Thread.join_rule (fun hnone => absurd hnone (h.joiningIo hcaller)) h fun _ =>
      ⟨fun _ => hnot, fun _ => rfl, fun _ => halive, nofun, nofun, nofun⟩
  | testReconnect =>
    have hnot : ¬ s.InstallPending := h.installed (by rw [hcaller]; rfl)
    have hio : s.ioThread = .none := h.io (by rw [hcaller]; rfl)
    dsimp only
    split
    next hjoinable =>
      have hreconnect : s.reconnectThread ≠ .none := Thread.joinable_iff.mp hjoinable
      exact ⟨fun _ => hnot, fun _ => hio, fun _ => halive, nofun, fun _ => hreconnect, nofun⟩
    next hjoinable =>
      have hreconnect : s.reconnectThread = .none :=
        Thread.not_joinable_iff.mp hjoinable
      exact ⟨fun _ => hnot, fun _ => hio, fun _ => halive, nofun, nofun, fun _ => hreconnect⟩
  | joinReconnect =>
    have hio : s.ioThread = .none := h.io (by rw [hcaller]; rfl)
    exact Thread.join_rule (fun hnone => absurd hnone (h.joiningReconnect hcaller)) h fun _ =>
      ⟨fun _ => not_installPending_none rfl, fun _ => hio, fun _ => halive, nofun, nofun,
        fun _ => rfl⟩
  | storeConnected =>
    have hnot : ¬ s.InstallPending := h.installed (by rw [hcaller]; rfl)
    have hio : s.ioThread = .none := h.io (by rw [hcaller]; rfl)
    have hreconnect : s.reconnectThread = .none := h.reconnect (by rw [hcaller]; rfl)
    exact ⟨fun _ => hnot, fun _ => hio, fun _ => halive, nofun, nofun, fun _ => hreconnect⟩

theorem Disconnecting.step (h : s.Disconnecting) {event : Event} (hok : s.InstallsInTime event) :
    (WsClient.step s event).Disconnecting := by
  have hrunning : ∀ {place}, s.ioThread = .running place → s.ioThread ≠ .none := by
    intro place hplace
    rw [hplace]
    nofun
  unfold WsClient.step
  split
  next => exact h
  next halive =>
    have halive : s.terminated = false := Bool.eq_false_iff.mpr halive
    cases event with
    | call request => exact call_rule h (disconnecting_of_before rfl) (disconnecting_of_before rfl)
    | setAutoReconnect enabled =>
      exact setAutoReconnect_rule h
        ⟨h.installed, h.io, h.alive, h.joiningIo, h.joiningReconnect, h.reconnect⟩
    | caller obtained => exact h.callerStep halive hok
    | destroyMembers =>
      refine destroyMembers_rule h (fun hreturned hjoinable => ?_) fun _ => disconnecting_of_before rfl
      rcases hjoinable with hio | hreconnect
      · exact absurd (h.io (by rw [hreturned]; rfl)) hio
      · exact absurd (h.reconnect (by rw [hreturned]; rfl)) hreconnect
    | opened =>
      exact onOpen_rule h fun hrun => h.ioMoves (hrunning hrun) (hrunning hrun) rfl id
    | closed => exact onClose_rule h fun hrun => h.ioMoves (hrunning hrun.1) nofun rfl id
    | failed => exact onFail_rule h fun hrun => h.ioMoves (hrunning hrun.1) nofun rfl id
    | handler => exact h.handlerStep
    | runReturns => exact runReturns_rule h fun hrun => h.ioMoves (hrunning hrun) nofun rfl id
    | callbackThrows =>
      exact callbackThrows_rule h fun hrun =>
        h.ioMoves (hrun.elim hrunning hrunning) nofun rfl id
    | reconnect obtained => exact h.reconnectStep hok

end Step

/-! ### After `disconnect` -/

structure Returned (s : WsClient) : Prop where
  io : s.ioThread = .none
  reconnect : s.reconnectThread = .none
  caller : s.caller = .returned ∨ s.caller = .destroyed
  alive : s.terminated = false

theorem Returned.step {s : WsClient} (h : s.Returned) {event : Event}
    (hcall : ∀ request, event ≠ .call request) : (WsClient.step s event).Returned := by
  have hio : ∀ {place}, s.ioThread ≠ .running place := by
    rw [h.io]
    nofun
  simp only [WsClient.step, h.alive, Bool.false_eq_true, if_false]
  cases event with
  | call request => exact absurd rfl (hcall request)
  | setAutoReconnect enabled =>
    exact setAutoReconnect_rule h ⟨h.io, h.reconnect, h.caller, h.alive⟩
  | caller obtained =>
    rcases h.caller with hreturned | hdestroyed
    · simp only [WsClient.callerStep, hreturned]
      exact h
    · simp only [WsClient.callerStep, hdestroyed]
      exact h
  | destroyMembers =>
    refine destroyMembers_rule h (fun _ hjoinable => ?_) fun _ =>
      ⟨h.io, h.reconnect, .inr rfl, h.alive⟩
    exact absurd hjoinable (not_or.mpr ⟨not_not.mpr h.io, not_not.mpr h.reconnect⟩)
  | opened => exact onOpen_rule h fun hrun => absurd hrun hio
  | closed => exact onClose_rule h fun hrun => absurd hrun.1 hio
  | failed => exact onFail_rule h fun hrun => absurd hrun.1 hio
  | handler =>
    simp only [WsClient.handlerStep, h.io]
    exact h
  | runReturns => exact runReturns_rule h fun hrun => absurd hrun hio
  | callbackThrows => exact callbackThrows_rule h fun hrun => absurd hrun (not_or.mpr ⟨hio, hio⟩)
  | reconnect obtained =>
    simp only [WsClient.reconnectStep, h.reconnect]
    exact h

theorem Returned.not_startsAttempt {s : WsClient} (h : s.Returned) (event : Event) :
    ¬ s.StartsAttempt event := by
  intro hstarts
  cases event with
  | caller obtained =>
    have hconnect : s.caller = .connect := hstarts
    rcases h.caller with hreturned | hdestroyed
    · rw [hconnect] at hreturned
      cases hreturned
    · rw [hconnect] at hdestroyed
      cases hdestroyed
  | reconnect obtained =>
    have hconnect : s.reconnectThread = .running .connect := hstarts
    rw [h.reconnect] at hconnect
    cases hconnect
  | _ => exact hstarts

theorem Returned.noAttempt {s : WsClient} (h : s.Returned) {events : List Event}
    (hcalls : ∀ request, Event.call request ∉ events) :
    Runs.Along WsClient.step (fun s event => ¬ s.StartsAttempt event) s events := by
  have hnoCall : Runs.Along WsClient.step (fun _ event => ∀ request, event ≠ Event.call request)
      s events := by
    refine Runs.along_of_mem ?_ s
    intro event hmem request heq
    rw [heq] at hmem
    exact hcalls request hmem
  refine (Runs.Along.carry (I := Returned) ?_ hnoCall h).2
  exact fun s event _ hs hcall => ⟨hs.step hcall, hs.not_startsAttempt event⟩

theorem Returned.shutDown {s : WsClient} (h : s.Returned) : s.ShutDown where
  io := h.io
  reconnect := h.reconnect
  noAttempt _ hcalls := h.noAttempt hcalls
  destroyed := (@Returned.step s h .destroyMembers nofun).alive

theorem Disconnecting.shutDown {s : WsClient} (h : s.Disconnecting) (hcaller : s.caller = .returned) :
    s.ShutDown := by
  have hreturned : s.Returned :=
    { io := h.io (by rw [hcaller]; rfl)
      reconnect := h.reconnect (by rw [hcaller]; rfl)
      caller := .inl hcaller
      alive := h.alive (by rw [hcaller]; rfl) }
  exact hreturned.shutDown

/-! ### The polled flag -/

/-- The loop has found `shutting_down_` unset after its back-off and goes for a connection. -/
def ReconnectPlace.attempting : ReconnectPlace → Bool
  | .reset | .getConnection | .connect | .testIo | .joinIo | .assignIo => true
  | .loadShutdown | .loadAuto | .loadConnected | .backOff | .wait => false

/-- A call of `disconnect` has set `shutting_down_`. -/
def CallerPlace.shuttingDown : CallerPlace → Bool
  | .storeAuto | .close | .stop | .lastTestIo | .lastJoinIo | .testReconnect | .joinReconnect
  | .storeConnected | .returned => true
  | .idle | .getConnection | .connect | .testIo | .joinIo | .assignIo | .destroyed => false

theorem CallerPlace.shuttingDown_of_pastIoTest {place : CallerPlace} (h : place.pastIoTest = true) :
    place.shuttingDown = true := by
  cases place <;> first | rfl | cases h

def Attempting (s : WsClient) : Prop :=
  ∃ place, s.reconnectThread = .running place ∧ place.attempting = true

/-- `disconnect` tests `io_thread_` while the loop is not going for a connection. -/
def TestsBetweenAttempts (s : WsClient) : Event → Prop
  | .caller _ => s.caller = .lastTestIo → ¬ s.Attempting
  | _ => True

structure Polled (s : WsClient) : Prop where
  flag : s.caller.shuttingDown = true → s.shuttingDown = true
  between : s.caller.pastIoTest = true → ¬ s.Attempting

section Polled
variable {s s' : WsClient}

theorem not_attempting_at {place : ReconnectPlace} (h : s.reconnectThread = .running place)
    (hplace : place.attempting = false) : ¬ s.Attempting := by
  intro hattempt
  obtain ⟨place', hplace', hattempting⟩ := hattempt
  rw [h] at hplace'
  cases hplace'
  exact absurd hattempting (Bool.eq_false_iff.mp hplace)

theorem not_attempting_of_not_running (h : ∀ place, s.reconnectThread ≠ .running place) :
    ¬ s.Attempting :=
  fun ⟨place, hplace, _⟩ => h place hplace

theorem InstallPending.attempting (h : s.InstallPending) : s.Attempting := by
  obtain ⟨place, hplace, hinstalling⟩ := h
  refine ⟨place, hplace, ?_⟩
  cases place <;> first | rfl | cases hinstalling

theorem Polled.moves (h : s.Polled) (hcaller : s'.caller = s.caller)
    (hflag : s'.shuttingDown = s.shuttingDown)
    (hattempt : s.caller.pastIoTest = true → s'.Attempting → s.Attempting) : s'.Polled := by
  constructor
  · intro hplace
    rw [hcaller] at hplace
    rw [hflag, h.flag hplace]
  · intro hpast hattempting
    rw [hcaller] at hpast
    exact h.between hpast (hattempt hpast hattempting)

theorem polled_of_not_shuttingDown (h : s.caller.shuttingDown = false) : s.Polled :=
  ⟨fun hplace => absurd hplace (Bool.eq_false_iff.mp h), fun hpast =>
    absurd (CallerPlace.shuttingDown_of_pastIoTest hpast) (Bool.eq_false_iff.mp h)⟩

theorem Polled.callerStep (h : s.Polled) {obtained : Bool}
    (hok : s.TestsBetweenAttempts (.caller obtained)) : (s.callerStep obtained).Polled := by
  unfold WsClient.callerStep
  cases hcaller : s.caller with
  | idle => exact h
  | returned => exact h
  | destroyed => exact h
  | getConnection => exact polled_of_not_shuttingDown (by cases obtained <;> rfl)
  | connect => exact polled_of_not_shuttingDown rfl
  | testIo => exact polled_of_not_shuttingDown (by cases s.ioThread <;> rfl)
  | joinIo =>
    exact Thread.join_rule (fun _ => h.moves rfl rfl fun _ => id) h fun _ =>
      polled_of_not_shuttingDown rfl
  | assignIo =>
    exact Thread.assign_rule (fun _ => h.moves rfl rfl fun _ => id) fun _ =>
      polled_of_not_shuttingDown rfl
  | storeAuto => exact ⟨fun _ => h.flag (by rw [hcaller]; rfl), nofun⟩
  | close => exact ⟨fun _ => h.flag (by rw [hcaller]; rfl), nofun⟩
  | stop => exact ⟨fun _ => h.flag (by rw [hcaller]; rfl), nofun⟩
  | lastTestIo => exact ⟨fun _ => h.flag (by rw [hcaller]; rfl), fun _ => hok hcaller⟩
  | lastJoinIo =>
    have hflag : s.shuttingDown = true := h.flag (by rw [hcaller]; rfl)
    have hnot : ¬ s.Attempting := h.between (by rw [hcaller]; rfl)
    exact Thread.join_rule (fun _ => h.moves rfl rfl fun _ => id) h fun _ =>
      ⟨fun _ => hflag, fun _ => hnot⟩
  | testReconnect =>
    have hflag : s.shuttingDown = true := h.flag (by rw [hcaller]; rfl)
    have hnot : ¬ s.Attempting := h.between (by rw [hcaller]; rfl)
    exact ⟨fun _ => hflag, fun _ => hnot⟩
  | joinReconnect =>
    have hflag : s.shuttingDown = true := h.flag (by rw [hcaller]; rfl)
    exact Thread.join_rule (fun _ => h.moves rfl rfl fun _ => id) h fun _ =>
      ⟨fun _ => hflag, fun _ => not_attempting_of_not_running nofun⟩
  | storeConnected =>
    have hflag : s.shuttingDown = true := h.flag (by rw [hcaller]; rfl)
    have hnot : ¬ s.Attempting := h.between (by rw [hcaller]; rfl)
    exact ⟨fun _ => hflag, fun _ => hnot⟩

theorem Polled.handlerStep (h : s.Polled) : s.handlerStep.Polled := by
  unfold WsClient.handlerStep
  cases s.ioThread with
  | none => exact h
  | finished => exact h
  | running place =>
    cases place with
    | run => exact h
    | loadAuto => exact h.moves rfl rfl fun _ => id
    | loadShutdown => exact h.moves rfl rfl fun _ => id
    | testReconnect => exact h.moves rfl rfl fun _ => id
    | joinReconnect =>
      exact Thread.join_rule (fun _ => h.moves rfl rfl fun _ => id) h fun _ =>
        h.moves rfl rfl fun _ hattempting => absurd hattempting (not_attempting_of_not_running nofun)
    | assignReconnect =>
      exact Thread.assign_rule (fun _ => h.moves rfl rfl fun _ => id) fun _ =>
        h.moves rfl rfl fun _ hattempting => absurd hattempting (not_attempting_at rfl rfl)

/-- The loop goes for a connection only where it finds `shutting_down_` unset. -/
theorem Polled.reconnectStep (h : s.Polled) (obtained : Bool) : (s.reconnectStep obtained).Polled := by
  unfold WsClient.reconnectStep
  cases hreconnect : s.reconnectThread with
  | none => exact h
  | finished => exact h
  | running place =>
    by_cases hattempting : place.attempting = true
    · -- what goes on is an attempt already
      have hgoes : ∀ s' : WsClient, s'.caller = s.caller → s'.shuttingDown = s.shuttingDown →
          s'.Polled :=
        fun s' hcaller hflag => h.moves hcaller hflag fun _ _ => ⟨place, hreconnect, hattempting⟩
      cases place with
      | reset => exact hgoes _ rfl rfl
      | getConnection => exact hgoes _ rfl rfl
      | connect => exact hgoes _ rfl rfl
      | testIo => exact hgoes _ rfl rfl
      | joinIo => exact Thread.join_rule (fun _ => hgoes _ rfl rfl) h fun _ => hgoes _ rfl rfl
      | assignIo => exact Thread.assign_rule (fun _ => hgoes _ rfl rfl) fun _ => hgoes _ rfl rfl
      | _ => cases hattempting
    · have hto : ∀ place', place'.attempting = false → (s.reconnectAt place').Polled :=
        fun place' hplace' => h.moves rfl rfl fun _ hpending =>
          absurd hpending (not_attempting_at rfl hplace')
      have hleave : s.leaveLoop.Polled :=
        h.moves rfl rfl fun _ hpending => absurd hpending (not_attempting_of_not_running nofun)
      cases place with
      | loadShutdown =>
        dsimp only
        split
        · exact hleave
        · exact hto _ rfl
      | loadAuto =>
        dsimp only
        split
        · exact hto _ rfl
        · exact hleave
      | loadConnected =>
        dsimp only
        split
        · exact hleave
        · exact hto _ rfl
      | backOff =>
        dsimp only
        split
        next => exact hleave
        next hunset =>
          refine h.moves rfl rfl fun hpast _ => ?_
          exact absurd (h.flag (CallerPlace.shuttingDown_of_pastIoTest hpast)) hunset
      | wait => exact hto _ rfl
      | _ => exact absurd rfl hattempting

theorem Polled.step (h : s.Polled) {event : Event} (hok : s.TestsBetweenAttempts event) :
    (WsClient.step s event).Polled := by
  unfold WsClient.step
  split
  · exact h
  · cases event with
    | call request =>
      exact call_rule h (polled_of_not_shuttingDown rfl) ⟨fun _ => rfl, nofun⟩
    | setAutoReconnect enabled => exact setAutoReconnect_rule h (h.moves rfl rfl fun _ => id)
    | caller obtained => exact h.callerStep hok
    | destroyMembers =>
      exact destroyMembers_rule h (fun _ _ => h.moves rfl rfl fun _ => id) fun _ =>
        polled_of_not_shuttingDown rfl
    | opened => exact onOpen_rule h fun _ => h.moves rfl rfl fun _ => id
    | closed => exact onClose_rule h fun _ => h.moves rfl rfl fun _ => id
    | failed => exact onFail_rule h fun _ => h.moves rfl rfl fun _ => id
    | handler => exact h.handlerStep
    | runReturns => exact runReturns_rule h fun _ => h.moves rfl rfl fun _ => id
    | callbackThrows => exact callbackThrows_rule h fun _ => h.moves rfl rfl fun _ => id
    | reconnect obtained => exact h.reconnectStep obtained

/-- Outside an attempt at the test, the flag keeps the loop from another one. -/
theorem Polled.installsInTime (h : s.Polled) {event : Event} (hok : s.TestsBetweenAttempts event) :
    s.InstallsInTime event := by
  cases event with
  | caller obtained => exact fun hplace hpending => hok hplace hpending.attempting
  | reconnect obtained =>
    intro hreconnect _
    refine Bool.eq_false_iff.mpr fun hpast => ?_
    exact h.between hpast ⟨.getConnection, hreconnect, rfl⟩
  | _ => trivial

end Polled

/-! ### A pending installation at the test -/

def callerSteps (n : ℕ) : List Event := List.replicate n (.caller true)

/-- Where nothing is left to join at the test, `disconnect` waits for the loop and
returns with the io thread that the loop installs. -/
theorem io_thread_of_installPending {s : WsClient} {place : ReconnectPlace}
    (halive : s.terminated = false) (hshutdown : s.shuttingDown = true)
    (hcaller : s.caller = .lastTestIo) (hio : s.ioThread = .none)
    (hreconnect : s.reconnectThread = .running place) (hinstalling : place.installing = true)
    (hplace : place ≠ .joinIo) :
    ∃ n, (Runs.run step s (callerSteps 1 ++ loopSteps n ++ callerSteps 3)).caller = .returned ∧
      (Runs.run step s (callerSteps 1 ++ loopSteps n ++ callerSteps 3)).ioThread =
        .running .run := by
  refine ⟨match place with | .connect => 5 | .testIo => 4 | _ => 3, ?_⟩
  cases place with
  | connect | testIo | assignIo =>
    simp [callerSteps, loopSteps, List.replicate, Runs.run, step, WsClient.callerStep,
      WsClient.reconnectStep, halive, hcaller, hio, hreconnect, hshutdown, callerAt, reconnectAt,
      leaveLoop, assignIo, WsClient.joinReconnect, Thread.join, Thread.assign, Thread.joinable]
  | joinIo => exact absurd rfl hplace
  | _ => cases hinstalling

/-! ### Runs -/

theorem installsInTime_of_tests {events : List Event}
    (h : Runs.Along step TestsBetweenAttempts {} events) : Runs.Along step InstallsInTime {} events :=
  (Runs.Along.carry (I := Polled) (fun _ _ _ hs hok => ⟨hs.step hok, hs.installsInTime hok⟩) h
    (polled_of_not_shuttingDown rfl)).2

theorem shutDown_when_returned {events : List Event} (h : Runs.Along step InstallsInTime {} events) :
    Runs.Always step (fun s => s.caller = .returned → s.ShutDown) {} events := by
  have hinit : Disconnecting {} := disconnecting_of_before rfl
  have halways : Runs.Always step Disconnecting {} events :=
    Runs.always_of_along (fun s event hs hok => hs.step hok) hinit h
  exact halways.imp fun s hs => hs.shutDown

def disconnectedInBackOff : List Event :=
  List.flatten [firstFailure, loopSteps 3, [.call .disconnect], callerSteps 6, loopSteps 1,
    callerSteps 3]

theorem shutDown_when_returned_backOff :
    (Runs.run step {} disconnectedInBackOff).caller = .returned ∧
      Runs.Always step (fun s => s.caller = .returned → s.ShutDown) {} disconnectedInBackOff := by
  have hok : Runs.Along step InstallsInTime {} disconnectedInBackOff := by decide +kernel
  exact ⟨by decide +kernel, shutDown_when_returned hok⟩

/-- The loop has found the flag unset when `disconnect` sets it, and resets the
io_service after `disconnect` has stopped it and joined the io thread. -/
def disconnectedBeforeReset : List Event :=
  List.flatten [firstFailure, loopSteps 4, [.call .disconnect], callerSteps 5, loopSteps 7,
    callerSteps 3]

theorem disconnectedBeforeReset_leaves_io_thread : ¬ ∀ events : List Event,
    Runs.Always step (fun s => s.caller = .returned → s.ShutDown) {} events := by
  intro h
  have hreturned : (Runs.run step {} disconnectedBeforeReset).caller = .returned := by
    decide +kernel
  have hrunning : (Runs.run step {} disconnectedBeforeReset).ioThread = .running .run := by
    decide +kernel
  have hnone := ((h disconnectedBeforeReset).last hreturned).io
  rw [hrunning] at hnone
  cases hnone

end WsClient

end CryptoArbBot
