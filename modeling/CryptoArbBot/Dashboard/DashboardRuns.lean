import CryptoArbBot.Dashboard.WsReceiver
import CryptoArbBot.Server.ClientStreams

/-!
# What the dashboard shows

After any run the receiver holds the newest trades and alerts, the last matrix of
each pair and the last message of every other type. With the streams of the server
these are the messages drained while the dashboard was connected.
-/

namespace CryptoArbBot.Dashboard
open MessageTypes WsReceiver

/-! ### The newest of a log -/

section Newest
variable {α β : Type} (f : α → Option β)

def lastOf (log : List α) : Option β := (log.filterMap f).getLast?

def newest (n : ℕ) (log : List α) : List β := (log.filterMap f).reverse.take n

variable {f}

theorem filterMap_concat_some {a : α} {b : β} (h : f a = some b) (log : List α) :
    (log ++ [a]).filterMap f = log.filterMap f ++ [b] := by
  rw [List.filterMap_append, List.filterMap_cons_some h]
  rfl

theorem filterMap_concat_none {a : α} (h : f a = none) (log : List α) :
    (log ++ [a]).filterMap f = log.filterMap f := by
  rw [List.filterMap_append, List.filterMap_cons_none h, List.filterMap_nil, List.append_nil]

theorem lastOf_concat (a : α) (log : List α) :
    lastOf f (log ++ [a]) = (f a).or (lastOf f log) := by
  cases h : f a with
  | none => rw [lastOf, filterMap_concat_none h, lastOf, Option.none_or]
  | some b => rw [lastOf, filterMap_concat_some h, List.getLast?_concat, Option.some_or]

end Newest

theorem newest_concat {α : Type} (f : α → Option Json) (n : ℕ) (a : α) (log : List α) :
    newest f n (log ++ [a]) = (f a).elim (newest f n log) (appendleft n · (newest f n log)) := by
  cases h : f a with
  | none => rw [newest, filterMap_concat_none h, Option.elim_none, newest]
  | some item =>
    rw [Option.elim_some, newest, newest, appendleft_take, filterMap_concat_some h,
      List.reverse_append]
    rfl

/-! ### Messages and what is shown -/

/-- The messages that the events carry, oldest first; a text that is not JSON carries none. -/
inductive Carries (loads : String → Option Json) :
    List SocketEvent → List ServerMessage → Prop where
  | nil : Carries loads [] []
  | message {events : List SocketEvent} {log : List ServerMessage} (now : ℚ) {text timestamp : String}
      {m : ServerMessage} (hloads : loads text = some (m.envelope timestamp)) :
      Carries loads events log → Carries loads (.message now text :: events) (m :: log)
  | garbled {events : List SocketEvent} {log : List ServerMessage} (now : ℚ) {text : String}
      (hloads : loads text = none) :
      Carries loads events log → Carries loads (.message now text :: events) log
  | opened {events : List SocketEvent} {log : List ServerMessage} :
      Carries loads events log → Carries loads (.opened :: events) log
  | closed {events : List SocketEvent} {log : List ServerMessage} :
      Carries loads events log → Carries loads (.closed :: events) log
  | slept {events : List SocketEvent} {log : List ServerMessage} :
      Carries loads events log → Carries loads (.slept :: events) log

/-- The receiver shows a log of messages. -/
structure Shows (log : List ServerMessage) (r : WsReceiver) : Prop where
  trades : r.trades = newest ServerMessage.trade? r.maxBuffer log
  spreads : ∀ pair, r.spreads.lookup pair = (lastOf (ServerMessage.spreads? pair) log).map pairData
  balances : r.balances = (lastOf ServerMessage.balances? log).getD (.object [])
  pnl : r.pnl = (lastOf ServerMessage.pnl? log).getD (.object [])
  prices : r.prices = (lastOf ServerMessage.prices? log).getD (.object [])
  alerts : r.alerts = newest ServerMessage.alert? 100 log
  heartbeat : (r.seq, r.droppedCount) =
    (lastOf ServerMessage.heartbeat? log).getD (.integer 0, .integer 0)

theorem shows_nil (maxBuffer : ℕ) : Shows [] ({ maxBuffer } : WsReceiver) :=
  ⟨(List.take_nil).symm, fun _ => rfl, rfl, rfl, rfl, rfl, rfl⟩

variable {loads : String → Option Json} {r : WsReceiver} {log : List ServerMessage}

theorem onMessage_envelope {text timestamp type : String} {data : Json}
    (hloads : loads text = some (makeEnvelope timestamp type data)) (now : ℚ) :
    r.onMessage loads now text = r.store now (some (.string type)) data := by
  obtain ⟨members, hmembers⟩ : ∃ members, makeEnvelope timestamp type data = .object members :=
    ⟨_, rfl⟩
  have htype := member?_type timestamp type data
  have hdata := member?_data timestamp type data
  rw [hmembers, member?_object] at htype hdata
  rw [onMessage, hloads, hmembers]
  simp only [htype, get, hdata, Option.getD_some]

theorem heartbeat_members (seq droppedCount : ℕ) :
    ∃ members, heartbeatData seq droppedCount = .object members ∧
      get members "seq" (.integer 0) = .integer seq ∧
      get members "dropped_count" (.integer 0) = .integer droppedCount := by
  have hkeys : ([("seq", Json.integer seq), ("dropped_count", Json.integer droppedCount)].map
      Prod.fst).Nodup := by simp
  have hmember := member?_ofAssignments_of_nodup hkeys
  refine ⟨_, rfl, ?_, ?_⟩
  · rw [get, ← member?_object, ← ofAssignments, hmember]
    rfl
  · rw [get, ← member?_object, ← ofAssignments, hmember]
    simp [List.lookup_cons]

/-- What the receiver makes of one message of the server. -/
structure Receives (m : ServerMessage) (r r' : WsReceiver) : Prop where
  maxBuffer : r'.maxBuffer = r.maxBuffer
  trades : r'.trades = m.trade?.elim r.trades (appendleft r.maxBuffer · r.trades)
  spreads : ∀ pair, r'.spreads.lookup pair =
    ((m.spreads? pair).map pairData).or (r.spreads.lookup pair)
  balances : r'.balances = m.balances?.getD r.balances
  pnl : r'.pnl = m.pnl?.getD r.pnl
  prices : r'.prices = m.prices?.getD r.prices
  alerts : r'.alerts = m.alert?.elim r.alerts (appendleft 100 · r.alerts)
  heartbeat : (r'.seq, r'.droppedCount) = m.heartbeat?.getD (r.seq, r.droppedCount)

theorem receives_onMessage (m : ServerMessage) {text timestamp : String}
    (hloads : loads text = some (m.envelope timestamp)) (now : ℚ) :
    Receives m r (r.onMessage loads now text).1 := by
  rw [ServerMessage.envelope_eq] at hloads
  rw [onMessage_envelope hloads]
  cases m with
  | trade t =>
    exact ⟨rfl, rfl, fun _ => rfl, rfl, rfl, rfl, rfl, rfl⟩
  | spreads pair matrix =>
    refine ⟨rfl, rfl, fun pair' => ?_, rfl, rfl, rfl, rfl, rfl⟩
    have hlookup := lookup_setItem pair pair' (pairData matrix) r.spreads
    refine hlookup.trans ?_
    rw [ServerMessage.spreads?]
    split
    · rfl
    · rfl
  | balances entries =>
    exact ⟨rfl, rfl, fun _ => rfl, rfl, rfl, rfl, rfl, rfl⟩
  | pnl stats =>
    exact ⟨rfl, rfl, fun _ => rfl, rfl, rfl, rfl, rfl, rfl⟩
  | heartbeat seq droppedCount =>
    obtain ⟨members, hmembers, hseq, hdropped⟩ := heartbeat_members seq droppedCount
    rw [ServerMessage.data, hmembers]
    exact ⟨rfl, rfl, fun _ => rfl, rfl, rfl, rfl, rfl, Prod.ext hseq hdropped⟩
  | alert drift message =>
    exact ⟨rfl, rfl, fun _ => rfl, rfl, rfl, rfl, rfl, rfl⟩
  | prices entries =>
    exact ⟨rfl, rfl, fun _ => rfl, rfl, rfl, rfl, rfl, rfl⟩

theorem Shows.receives (h : Shows log r) {m : ServerMessage} {r' : WsReceiver}
    (hm : Receives m r r') : Shows (log ++ [m]) r' where
  trades := by rw [hm.trades, hm.maxBuffer, newest_concat, h.trades]
  spreads pair := by
    rw [hm.spreads, lastOf_concat, h.spreads]
    cases m.spreads? pair <;> rfl
  balances := by
    rw [hm.balances, lastOf_concat, h.balances]
    cases m.balances? <;> rfl
  pnl := by
    rw [hm.pnl, lastOf_concat, h.pnl]
    cases m.pnl? <;> rfl
  prices := by
    rw [hm.prices, lastOf_concat, h.prices]
    cases m.prices? <;> rfl
  alerts := by rw [hm.alerts, newest_concat, h.alerts]
  heartbeat := by
    rw [hm.heartbeat, lastOf_concat, h.heartbeat]
    cases m.heartbeat? <;> rfl

theorem Shows.step_silent (h : Shows log r) :
    Shows log r.onOpen ∧ Shows log r.onClose ∧ Shows log r.slept := by
  obtain ⟨htrades, hspreads, hbalances, hpnl, hprices, halerts, hheartbeat⟩ := h
  exact ⟨⟨htrades, hspreads, hbalances, hpnl, hprices, halerts, hheartbeat⟩,
    ⟨htrades, hspreads, hbalances, hpnl, hprices, halerts, hheartbeat⟩,
    ⟨htrades, hspreads, hbalances, hpnl, hprices, halerts, hheartbeat⟩⟩

theorem Shows.run (h : Shows log r) {events : List SocketEvent} {more : List ServerMessage}
    (hcarries : Carries loads events more) :
    Shows (log ++ more) (Runs.run (WsReceiver.step loads) r events) := by
  induction hcarries generalizing log r with
  | nil =>
    rw [List.append_nil]
    exact h
  | @message events more now text timestamp m hloads _ ih =>
    have hnext := h.receives (receives_onMessage m hloads now)
    rw [List.append_cons]
    exact ih hnext
  | garbled now hloads _ ih =>
    refine ih ?_
    rw [WsReceiver.step, onMessage, hloads]
    exact h
  | opened _ ih => exact ih h.step_silent.1
  | closed _ ih => exact ih h.step_silent.2.1
  | slept _ ih => exact ih h.step_silent.2.2

/-! ### From the broadcasts to the dashboard -/

def WsReceiver.SocketEvent.text? : SocketEvent → Option String
  | .message _ text => some text
  | .opened | .closed | .slept => none

/-- The texts that were sent to a client without an exception. -/
def received (sends : List (String × Bool)) : List String :=
  (sends.filter (·.2)).map Prod.fst

theorem carries_of_texts {dump : Json → String} {msgs : List (String × ServerMessage)}
    (hloads : ∀ m ∈ msgs, loads (dump (m.2.envelope m.1)) = some (m.2.envelope m.1))
    {events : List SocketEvent}
    (htexts : events.filterMap SocketEvent.text? = msgs.map fun m => dump (m.2.envelope m.1)) :
    Carries loads events (msgs.map Prod.snd) := by
  induction events generalizing msgs with
  | nil =>
    have hnil : msgs = [] := List.map_eq_nil_iff.mp htexts.symm
    rw [hnil]
    exact .nil
  | cons event events ih =>
    cases event with
    | message now text =>
      rw [List.filterMap_cons_some (rfl : SocketEvent.text? (.message now text) = some text)] at htexts
      cases msgs with
      | nil => cases htexts
      | cons m msgs =>
        rw [List.map_cons, List.cons.injEq] at htexts
        obtain ⟨rfl, hrest⟩ := htexts
        exact .message now (hloads m (List.mem_cons_self ..))
          (ih (fun m' hm' => hloads m' (List.mem_cons_of_mem _ hm')) hrest)
    | opened => exact .opened (ih hloads htexts)
    | closed => exact .closed (ih hloads htexts)
    | slept => exact .slept (ih hloads htexts)

theorem dashboard_shows {events : List SocketEvent} (hcarries : Carries loads events log)
    (maxBuffer : ℕ) :
    Shows log (Runs.run (WsReceiver.step loads) { maxBuffer } events) :=
  (shows_nil maxBuffer).run hcarries

/-! ### One heartbeat -/

def beat : ServerMessage := .heartbeat 1 0

def beatTime : String := "2024-01-01T00:00:00.000Z"

def beatText : String := String.join [
  "\x7b\"data\":\x7b\"dropped_count\":0,\"seq\":1\x7d,",
  "\"timestamp\":\"2024-01-01T00:00:00.000Z\",\"type\":\"heartbeat\"\x7d"]

def beatLoads (text : String) : Option Json :=
  if text = beatText then some (beat.envelope beatTime) else none

theorem beatLoads_text : beatLoads beatText = some (beat.envelope beatTime) := if_pos rfl

theorem beat_shown : Shows [beat] (Runs.run (WsReceiver.step beatLoads) { maxBuffer := 1000 }
    [.opened, .message 0 beatText, .message 1 "oops", .closed, .slept]) :=
  dashboard_shows
    (.opened (.message 0 beatLoads_text (.garbled 1 (if_neg (by decide)) (.closed (.slept .nil))))) 1000

open Broadcast in
/-- The dashboard is client `hdl`, connected from `s` to `t`; its events are the texts
it was sent in between. -/
theorem dashboard_follows_broadcasts {ι κ : Type} [DecidableEq ι] [LinearOrder κ] {capacity : ℕ}
    (hcap : capacity < 2 ^ 64 - 1) (before after : List (DrainEvent ι κ)) (hdl : κ)
    (hok : Runs.Along DrainServer.step DrainServer.Uncontended { queue := System.new capacity }
      (before ++ after))
    (dump : Json → String) {msgs : List (String × ServerMessage)}
    (hloads : ∀ m ∈ msgs, loads (dump (m.2.envelope m.1)) = some (m.2.envelope m.1))
    (hshows : Shows log r) {events : List SocketEvent} :
    let s := Runs.run DrainServer.step { queue := System.new capacity } before
    let t := Runs.run DrainServer.step s after
    let sends := (t.sends hdl).drop (s.sends hdl).length
    hdl ∈ s.connections → .closed hdl ∉ after → s.locked = false → t.locked = false →
      (t.queue.accepted.take t.drained).drop s.drained =
        msgs.map (fun m => dump (m.2.envelope m.1)) →
      events.filterMap SocketEvent.text? = received sends →
      ∃ shown, shown.Sublist msgs ∧ ((∀ send ∈ sends, send.2 = true) → shown = msgs) ∧
        Shows (log ++ shown.map Prod.snd) (Runs.run (WsReceiver.step loads) r events) := by
  intro s t sends hconnected hstays hs ht haccepted hevents
  have hall : t = Runs.run DrainServer.step { queue := System.new capacity } (before ++ after) :=
    (Runs.run_append _ _ _ _).symm
  have horder : t.queue.popped <+: t.queue.accepted := by
    rw [hall]
    exact DrainServer.popped_prefix hcap hok
  have hsends : sends.map Prod.fst = msgs.map fun m => dump (m.2.envelope m.1) := by
    rw [← haccepted, List.map_drop,
      sends_between before after hdl rfl rfl horder hconnected hstays hs ht,
      List.drop_left' (List.length_map _)]
  have hsublist : (received sends).Sublist (msgs.map fun m => dump (m.2.envelope m.1)) := by
    rw [← hsends]
    exact List.filter_sublist.map _
  obtain ⟨shown, hshown, htexts⟩ := List.sublist_map_iff.mp hsublist
  have hread : ∀ m ∈ shown, loads (dump (m.2.envelope m.1)) = some (m.2.envelope m.1) :=
    fun m hm => hloads m (hshown.subset hm)
  refine ⟨shown, hshown, fun hsent => ?_, ?_⟩
  · have hreceived : received sends = sends.map Prod.fst := by
      rw [received, List.filter_eq_self.mpr hsent]
    refine hshown.eq_of_length ?_
    have hlength := congrArg List.length (htexts.symm.trans (hreceived.trans hsends))
    rwa [List.length_map, List.length_map] at hlength
  · exact hshows.run (carries_of_texts hread (hevents.trans htexts))

/-- A heartbeat that one of two threads broadcasts. -/
def beatEvents : List (Broadcast.DrainEvent Bool ℕ) :=
  [.queue (.push true beatText), .queue (.producer true), .queue (.producer true),
    .queue (.producer true), .queue .pop, .queue (.consumer ""), .queue (.consumer ""),
    .queue (.consumer ""), .take, .send true, .send true]

open Broadcast in
theorem beatEvents_uncontended : Runs.Along DrainServer.step DrainServer.Uncontended
    { queue := System.new 2 } ([.opened 0] ++ beatEvents) := by
  refine ⟨trivial, trivial, trivial, ⟨rfl, ?_, ?_⟩, trivial, trivial, trivial, trivial, trivial,
    trivial, trivial, trivial, trivial⟩
  · show 1 ≠ 0
    decide
  · intro j
    cases j with
    | true => exact fun hw => hw
    | false => exact fun hw => hw

open Broadcast in
theorem beat_followed :
    let s := Runs.run DrainServer.step { queue := System.new 2 } [.opened 0]
    let t := Runs.run DrainServer.step s beatEvents
    let sends := (t.sends 0).drop (s.sends 0).length
    ∃ shown, shown.Sublist [(beatTime, beat)] ∧
      ((∀ send ∈ sends, send.2 = true) → shown = [(beatTime, beat)]) ∧
      Shows ([] ++ shown.map Prod.snd)
        (Runs.run (WsReceiver.step beatLoads) { maxBuffer := 1000 } [.opened, .message 0 beatText]) :=
  dashboard_follows_broadcasts (by decide) [.opened 0] beatEvents 0 beatEvents_uncontended
    (fun _ => beatText) (fun m hm => by rw [List.mem_singleton.mp hm]; exact beatLoads_text)
    (shows_nil 1000) (by decide) (by simp [beatEvents]) rfl rfl rfl rfl

end CryptoArbBot.Dashboard
