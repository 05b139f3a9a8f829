import CryptoArbBot.Exchange.Subscriptions
import CryptoArbBot.Exchange.WsClient

/-!
# When no subscription is lost

A registered symbol whose subscribe message is not yet out on the open connection
is still due: `on_connected` has not taken the lock, or has it among the messages
it still sends, or a call of `subscribe_depth` is on its way to send it. Only an
older connection that closes or fails beside an open one takes the flag away from it.
-/

namespace CryptoArbBot

namespace DepthCall

/-- The call has registered the symbol and may still send its message. -/
def Announces (client : DepthClient) (symbol : String) : DepthCall → Prop
  | .isConnected other | .send other => other = symbol
  | .write _ msg => client.Subscribes msg symbol
  | .register _ | .sendUnsubscribe _ | .writeUnsubscribe _ _ | .erase _ | .returned => False

def subscribing : DepthCall → Bool
  | .register _ | .isConnected _ | .send _ | .write _ _ => true
  | .sendUnsubscribe _ | .writeUnsubscribe _ _ | .erase _ | .returned => false

theorem Announces.subscribing {client : DepthClient} {symbol : String} {call : DepthCall}
    (h : call.Announces client symbol) : call.subscribing = true := by
  cases call <;> first | rfl | cases h

end DepthCall

namespace DepthFeed

variable {client : DepthClient} {feed : DepthFeed} {symbol : String}

def Sent (client : DepthClient) (feed : DepthFeed) (symbol : String) : Prop :=
  ∃ msg ∈ feed.sent, client.Subscribes msg symbol

def toSend : FeedIo → List Json
  | .send msgs => msgs
  | .write msg msgs => msg :: msgs
  | .idle | .storeConnected | .lock => []

/-- `on_connected` will still see the symbol or send its message. -/
def ConnectSends (client : DepthClient) (feed : DepthFeed) (symbol : String) : Prop :=
  feed.io = .storeConnected ∨ feed.io = .lock ∨
    ∃ msg ∈ toSend feed.io, client.Subscribes msg symbol

/-- Only a connection whose handler is still to store the flag is open without it. -/
def Flagged (feed : DepthFeed) : Prop :=
  feed.link = .opened → feed.connected = true ∨ feed.io = .storeConnected

theorem clientSend_frame (feed : DepthFeed) (msg : Json) :
    (feed.clientSend msg).pending = feed.pending ∧
      (feed.clientSend msg).connected = feed.connected ∧
      (feed.clientSend msg).link = feed.link ∧ (feed.clientSend msg).io = feed.io ∧
      feed.sent ⊆ (feed.clientSend msg).sent := by
  unfold clientSend
  split
  · exact ⟨rfl, rfl, rfl, rfl, List.subset_append_left ..⟩
  · exact ⟨rfl, rfl, rfl, rfl, List.Subset.refl _⟩

theorem sent_clientSend (hopen : feed.link = .opened) {msg : Json}
    (h : client.Subscribes msg symbol) : (feed.clientSend msg).Sent client symbol := by
  refine ⟨msg, ?_, h⟩
  unfold clientSend
  rw [if_pos hopen]
  exact List.mem_append_right _ (List.mem_singleton_self _)

theorem Sent.mono {feed' : DepthFeed} (h : feed.Sent client symbol) (hsent : feed.sent ⊆ feed'.sent) :
    feed'.Sent client symbol := by
  obtain ⟨msg, hmsg, hsub⟩ := h
  exact ⟨msg, hsent hmsg, hsub⟩

/-! ### One section of a call -/

theorem advance_frame (client : DepthClient) (feed : DepthFeed) (call : DepthCall) :
    (feed.advance client call).1.connected = feed.connected ∧
      (feed.advance client call).1.link = feed.link ∧ (feed.advance client call).1.io = feed.io ∧
      feed.sent ⊆ (feed.advance client call).1.sent := by
  have hsame : feed.sent ⊆ feed.sent := List.Subset.refl _
  cases call with
  | register other =>
    simp only [advance]
    split
    · exact ⟨rfl, rfl, rfl, hsame⟩
    · exact ⟨rfl, rfl, rfl, hsame⟩
  | erase other =>
    simp only [advance]
    split
    · exact ⟨rfl, rfl, rfl, hsame⟩
    · exact ⟨rfl, rfl, rfl, hsame⟩
  | write other msg => exact (clientSend_frame feed msg).2
  | writeUnsubscribe other msg => exact (clientSend_frame feed msg).2
  | isConnected other | send other | sendUnsubscribe other | returned => exact ⟨rfl, rfl, rfl, hsame⟩

/-- A symbol is pending when it has been registered and not unsubscribed since: only
these two sections change `pending_subs_`, once they have the lock. -/
theorem mem_pending_advance (call : DepthCall) : symbol ∈ (feed.advance client call).1.pending ↔
    (call = .register symbol ∧ feed.io.locked = false) ∨
      (symbol ∈ feed.pending ∧ ¬ (call = .erase symbol ∧ feed.io.locked = false)) := by
  cases call with
  | register other =>
    simp only [advance]
    split
    next hlocked => simp [hlocked]
    next hlocked => simp [hlocked, or_comm, @eq_comm _ symbol other]
  | erase other =>
    simp only [advance]
    split
    next hlocked => simp [hlocked]
    next hlocked => simp [hlocked, @eq_comm _ symbol other]
  | write other msg | writeUnsubscribe other msg =>
    simp only [advance]
    rw [(clientSend_frame feed msg).1]
    simp
  | isConnected other | send other | sendUnsubscribe other | returned => simp [advance]

/-- A symbol that a call registers is announced by it. -/
theorem advance_pending {call : DepthCall} (h : symbol ∈ (feed.advance client call).1.pending) :
    symbol ∈ feed.pending ∨ (feed.advance client call).2.Announces client symbol := by
  rcases (mem_pending_advance call).mp h with ⟨rfl, hfree⟩ | ⟨hold, _⟩
  · right
    simp only [advance]
    rw [if_neg (by rw [hfree]; exact Bool.false_ne_true)]
    rfl
  · exact .inl hold

/-- On an open connection a call gives up a symbol only while `on_connected` is
still to come, or with its message out. -/
theorem advance_announces (hopen : feed.link = .opened) (hflag : feed.Flagged) {call : DepthCall}
    (h : call.Announces client symbol) :
    (feed.advance client call).2.Announces client symbol ∨
      (feed.advance client call).1.Sent client symbol ∨ feed.io = .storeConnected := by
  cases call with
  | isConnected other =>
    simp only [advance]
    rcases hflag hopen with hconnected | hstore
    · rw [if_pos hconnected]
      exact .inl h
    · exact .inr (.inr hstore)
  | send other =>
    simp only [advance]
    rcases hflag hopen with hconnected | hstore
    · rw [if_pos hconnected]
      have hsymbol : other = symbol := h
      rw [hsymbol]
      exact .inl (client.subscribe_subscribes feed.now symbol)
    · exact .inr (.inr hstore)
  | write other msg => exact .inr (.inl (sent_clientSend hopen h))
  | register other => cases h
  | sendUnsubscribe other => cases h
  | writeUnsubscribe other msg => cases h
  | erase other => cases h
  | returned => cases h

/-! ### One step of the connection -/

theorem ioStep_frame (client : DepthClient) (feed : DepthFeed) :
    (feed.ioStep client).pending = feed.pending ∧ (feed.ioStep client).link = feed.link ∧
      feed.sent ⊆ (feed.ioStep client).sent := by
  unfold ioStep
  split
  · exact ⟨rfl, rfl, List.Subset.refl _⟩
  · exact ⟨rfl, rfl, List.Subset.refl _⟩
  · split
    · exact ⟨rfl, rfl, List.Subset.refl _⟩
    · exact ⟨rfl, rfl, List.Subset.refl _⟩
  · exact ⟨rfl, rfl, List.Subset.refl _⟩
  · exact ⟨rfl, rfl, List.Subset.refl _⟩
  next msg msgs _ =>
    obtain ⟨hpending, _, hlink, _, hsent⟩ := clientSend_frame feed msg
    exact ⟨hpending, hlink, hsent⟩

theorem ioStep_flagged (h : feed.Flagged) : (feed.ioStep client).Flagged := by
  intro hopen
  rw [(ioStep_frame client feed).2.1] at hopen
  have hflag := h hopen
  unfold ioStep
  split
  · exact hflag
  · exact .inl rfl
  next hio =>
    have hconnected := hflag.resolve_right (by rw [hio]; nofun)
    split
    · exact .inl hconnected
    · exact .inl hconnected
  next hio => exact .inl (hflag.resolve_right (by rw [hio]; nofun))
  next msg msgs hio => exact .inl (hflag.resolve_right (by rw [hio]; nofun))
  next msg msgs hio =>
    have hconnected := hflag.resolve_right (by rw [hio]; nofun)
    exact .inl ((clientSend_frame feed msg).2.1.trans hconnected)

/-- On an open connection `on_connected` drops a symbol only with its message out. -/
theorem ioStep_connectSends (hopen : feed.link = .opened) (hflag : feed.Flagged)
    (hpending : symbol ∈ feed.pending) (h : feed.ConnectSends client symbol) :
    (feed.ioStep client).ConnectSends client symbol ∨ (feed.ioStep client).Sent client symbol := by
  unfold ConnectSends at h
  cases hio : feed.io with
  | idle =>
    rw [hio] at h
    obtain ⟨msg, hmsg, _⟩ := (h.resolve_left nofun).resolve_left nofun
    cases hmsg
  | storeConnected =>
    left
    unfold ioStep
    rw [hio]
    exact .inr (.inl rfl)
  | lock =>
    left
    unfold ioStep
    rw [hio]
    dsimp only
    rw [if_neg (List.ne_nil_of_mem hpending)]
    exact .inr (.inr (client.connect_subscribes feed.now feed.pending symbol hpending))
  | send msgs =>
    rw [hio] at h
    obtain ⟨msg, hmsg, hsub⟩ := (h.resolve_left nofun).resolve_left nofun
    have hconnected := (hflag hopen).resolve_right (by rw [hio]; nofun)
    cases msgs with
    | nil => cases hmsg
    | cons first msgs =>
      left
      unfold ioStep
      rw [hio]
      dsimp only
      rw [if_pos hconnected]
      exact .inr (.inr ⟨msg, hmsg, hsub⟩)
  | write first msgs =>
    rw [hio] at h
    obtain ⟨msg, hmsg, hsub⟩ := (h.resolve_left nofun).resolve_left nofun
    unfold ioStep
    rw [hio]
    rcases List.mem_cons.mp hmsg with heq | hrest
    · subst heq
      exact .inr (sent_clientSend hopen hsub)
    · exact .inl (.inr (.inr ⟨msg, hrest, hsub⟩))

end DepthFeed

/-! ### Runs -/

abbrev DepthSystem := Interleaving.System DepthFeed DepthCall

namespace DepthSystem

open DepthFeed

variable {client : DepthClient} {sys : DepthSystem}

def Due (client : DepthClient) (sys : DepthSystem) (symbol : String) : Prop :=
  sys.shared.ConnectSends client symbol ∨ sys.shared.Sent client symbol ∨
    ∃ call ∈ sys.calls, call.Announces client symbol

structure NoneDropped (client : DepthClient) (sys : DepthSystem) : Prop where
  flagged : sys.shared.Flagged
  due : sys.shared.link = .opened → ∀ symbol ∈ sys.shared.pending, Due client sys symbol

theorem NoneDropped.advance (h : NoneDropped client sys) {i : ℕ} {call : DepthCall}
    (hcall : sys.calls[i]? = some call) :
    NoneDropped client ⟨(sys.shared.advance client call).1,
      sys.calls.set i (sys.shared.advance client call).2⟩ := by
  obtain ⟨hconnected, hlink, hio, hsent⟩ := advance_frame client sys.shared call
  constructor
  · intro hopen
    dsimp only
    rw [hconnected, hio]
    exact h.flagged (hlink ▸ hopen)
  · intro hopen symbol hpending
    have hopened : sys.shared.link = .opened := hlink ▸ hopen
    have hsends : sys.shared.ConnectSends client symbol →
        (sys.shared.advance client call).1.ConnectSends client symbol := by
      unfold ConnectSends
      rw [hio]
      exact id
    rcases advance_pending hpending with hold | hnew
    · rcases h.due hopened symbol hold with hconnect | hout | hannounced
      · exact .inl (hsends hconnect)
      · exact .inr (.inl (hout.mono hsent))
      · rcases Interleaving.exists_calls_set hcall
          (advance_announces hopened h.flagged) hannounced with hstill | hout | hstore
        · exact .inr (.inr hstill)
        · exact .inr (.inl hout)
        · exact .inl (hsends (.inl hstore))
    · have hi := (List.getElem?_eq_some_iff.mp hcall).1
      exact .inr (.inr ⟨_, List.mem_set hi _, hnew⟩)

theorem NoneDropped.ioStep (h : NoneDropped client sys) :
    NoneDropped client ⟨sys.shared.ioStep client, sys.calls⟩ := by
  obtain ⟨hpending, hlink, hsent⟩ := ioStep_frame client sys.shared
  refine ⟨ioStep_flagged h.flagged, ?_⟩
  intro hopen symbol hmem
  have hopened : sys.shared.link = .opened := hlink ▸ hopen
  have hold : symbol ∈ sys.shared.pending := hpending ▸ hmem
  rcases h.due hopened symbol hold with hconnect | hout | hannounced
  · rcases ioStep_connectSends hopened h.flagged hold hconnect with hconnect | hout
    · exact .inl hconnect
    · exact .inr (.inl hout)
  · exact .inr (.inl (hout.mono hsent))
  · exact .inr (.inr hannounced)

/-- The handler of an older connection does not clear the flag of an open one. -/
def Undisturbed (sys : DepthSystem) : Interleaving.Event DepthRequest FeedEvent → Prop
  | .atomic (.closed (.older i)) =>
    sys.shared.canHandle .lost (.older i) = true → sys.shared.link ≠ .opened
  | .atomic (.failed (.older i)) =>
    sys.shared.canHandle .connecting (.older i) = true → sys.shared.link ≠ .opened
  | _ => True

/-- Nothing is due on a connection that is not open. -/
theorem noneDropped_of_not_opened (h : sys.shared.link ≠ .opened) : NoneDropped client sys :=
  ⟨fun hopen => absurd hopen h, fun hopen => absurd hopen h⟩

/-- A connection that opens has its `on_connected` before it. -/
theorem noneDropped_of_storeConnected (h : sys.shared.io = .storeConnected) : NoneDropped client sys :=
  ⟨fun _ => .inr h, fun _ _ _ => .inl (.inl h)⟩

/-- A handler that clears the flag of a connection which is not open. -/
theorem noneDropped_closed {conn : WsConnection}
    (hok : ∀ i, conn = .older i → sys.shared.link ≠ .opened) :
    NoneDropped client ⟨{ sys.shared.setLink .closed conn with connected := false }, sys.calls⟩ := by
  cases conn with
  | current => exact noneDropped_of_not_opened nofun
  | older i => exact noneDropped_of_not_opened (hok i rfl)

theorem NoneDropped.happens (h : NoneDropped client sys) {event : FeedEvent}
    (hok : Undisturbed sys (.atomic event)) :
    NoneDropped client ⟨sys.shared.happens client event, sys.calls⟩ := by
  cases event with
  | clock now => exact ⟨h.flagged, h.due⟩
  | io => exact h.ioStep
  | dial => exact noneDropped_of_not_opened nofun
  | opened conn =>
    simp only [DepthFeed.happens]
    split
    · exact noneDropped_of_storeConnected rfl
    · exact h
  | lost conn =>
    simp only [DepthFeed.happens]
    split
    · cases conn with
      | current => exact noneDropped_of_not_opened nofun
      | older i => exact ⟨h.flagged, h.due⟩
    · exact h
  | closed conn =>
    simp only [DepthFeed.happens]
    split
    next hhandle =>
      refine noneDropped_closed ?_
      rintro i rfl
      exact hok hhandle
    next => exact h
  | failed conn =>
    simp only [DepthFeed.happens]
    split
    next hhandle =>
      refine noneDropped_closed ?_
      rintro i rfl
      exact hok hhandle
    next => exact h

theorem NoneDropped.step (h : NoneDropped client sys)
    {event : Interleaving.Event DepthRequest FeedEvent} (hok : Undisturbed sys event) :
    NoneDropped client (Interleaving.step client.program sys event) := by
  cases event with
  | start request =>
    refine ⟨h.flagged, fun hopen symbol hpending => ?_⟩
    rcases h.due hopen symbol hpending with hconnect | hout | ⟨call, hcall, hannounced⟩
    · exact .inl hconnect
    · exact .inr (.inl hout)
    · exact .inr (.inr ⟨call, List.mem_append_left _ hcall, hannounced⟩)
  | atomic event => exact h.happens hok
  | advance i =>
    cases hcall : sys.calls[i]? with
    | none =>
      rw [Interleaving.step_advance_none hcall]
      exact h
    | some call =>
      rw [Interleaving.step_advance_some hcall]
      exact h.advance hcall

/-- The connection is open, its `on_connected` has finished and no `subscribe_depth`
is in progress. -/
structure Settled (sys : DepthSystem) : Prop where
  opened : sys.shared.link = .opened
  idle : sys.shared.io = .idle
  returned : ∀ call ∈ sys.calls, call.subscribing = false

theorem NoneDropped.sent (h : NoneDropped client sys) (hsettled : Settled sys) {symbol : String}
    (hpending : symbol ∈ sys.shared.pending) : sys.shared.Sent client symbol := by
  rcases h.due hsettled.opened symbol hpending with hconnect | hout | ⟨call, hcall, hannounced⟩
  · unfold ConnectSends at hconnect
    rw [hsettled.idle] at hconnect
    obtain ⟨msg, hmsg, _⟩ := (hconnect.resolve_left nofun).resolve_left nofun
    cases hmsg
  · exact hout
  · have hdone := hsettled.returned call hcall
    rw [hannounced.subscribing] at hdone
    cases hdone

/-- Every registered symbol has its subscribe message on the current connection,
whenever the run is settled. -/
def Subscribed (client : DepthClient) (sys : DepthSystem) : Prop :=
  Settled sys → ∀ symbol ∈ sys.shared.pending, sys.shared.Sent client symbol

/-- No subscription is lost in a run in which no older connection closes or fails beside
the current one while that is open. -/
theorem always_subscribed (venue : DepthVenue)
    {events : List (Interleaving.Event DepthRequest FeedEvent)}
    (hok : Runs.Along (Interleaving.step venue.client.program) Undisturbed ⟨{}, []⟩ events) :
    Runs.Always (Interleaving.step venue.client.program) (Subscribed venue.client) ⟨{}, []⟩ events := by
  have hinit : NoneDropped venue.client ⟨{}, []⟩ := noneDropped_of_not_opened nofun
  have hinv := Runs.always_of_along (fun sys event (h : NoneDropped venue.client sys) hstep =>
    h.step hstep) hinit hok
  refine hinv.imp ?_
  intro sys h hsettled symbol hpending
  exact h.sent hsettled hpending

/-- Registered before the connection opens and tested before the flag is stored, while the
connection before it is already lost. -/
def registeredEarly : List (Interleaving.Event DepthRequest FeedEvent) :=
  [.atomic .dial, .atomic (.opened .current), .atomic .io, .atomic .io, .atomic (.lost .current),
    .atomic .dial, .atomic (.closed (.older 0)), .start (.subscribe "BTCUSDT"), .advance 0,
    .atomic (.opened .current), .advance 0] ++ List.replicate 5 (.atomic .io)

theorem registeredEarly_subscribed : Runs.Always (Interleaving.step DepthVenue.bybit.client.program)
    (Subscribed DepthVenue.bybit.client) ⟨{}, []⟩ registeredEarly :=
  always_subscribed .bybit ⟨trivial, trivial, trivial, trivial, trivial, trivial, fun _ => nofun, trivial,
    trivial, trivial, trivial, trivial, trivial, trivial, trivial, trivial, trivial⟩

/-- The connection before the current one closes after both have opened, then a symbol is
registered. -/
def closedBehind : List (Interleaving.Event DepthRequest FeedEvent) :=
  [.atomic .dial, .atomic .dial, .atomic (.opened (.older 0)), .atomic .io, .atomic .io,
    .atomic (.opened .current), .atomic .io, .atomic .io, .atomic (.lost (.older 0)),
    .atomic (.closed (.older 0)), .start (.subscribe "BTCUSDT"), .advance 0, .advance 0]

theorem subscription_lost : ¬ ∀ (venue : DepthVenue)
    (events : List (Interleaving.Event DepthRequest FeedEvent)),
    Runs.Always (Interleaving.step venue.client.program) (Subscribed venue.client) ⟨{}, []⟩ events := by
  intro h
  have hlast := (h .bybit closedBehind).last
  have hsettled : Settled (Runs.run (Interleaving.step DepthVenue.bybit.client.program)
      (⟨{}, []⟩ : DepthSystem) closedBehind) := by
    refine ⟨rfl, rfl, ?_⟩
    intro call hcall
    rw [List.mem_singleton.mp hcall]
    rfl
  obtain ⟨msg, hmsg, _⟩ := hlast hsettled "BTCUSDT" (List.mem_singleton_self _)
  cases hmsg

/-- The client gets there: the second connection of `reconnect_loop` opens with the first
one, which then closes. -/
example :
    let s := Runs.run WsClient.step {} ([.call .connect, .caller true, .caller true, .caller true,
      .caller true, .failed, .handler, .handler, .handler, .handler, .runReturns] ++
      List.replicate 18 (.reconnect true) ++ [.opened, .opened, .closed])
    s.established = 1 ∧ s.pending = 0 ∧ s.connected = false ∧ s.terminated = false := by decide

end DepthSystem

end CryptoArbBot
