import CryptoArbBot.Server.MessageTypes

/-!
# The dashboard's receiver (dashboard/ws_receiver.py)

`json.loads` is a parameter that is `none` on a text it cannot decode. A handler
returns the receiver with the exception it raises, if any: only a text that is not
JSON is caught. A key of `spreads` that is no text is left out, as no pair is found
under it.
-/

namespace CryptoArbBot.Dashboard

structure WsReceiver where
  maxBuffer : ℕ := 1000
  connected : Bool := false
  lastHeartbeat : ℚ := 0
  reconnectDelay : ℕ := 1
  trades : List Json := []
  spreads : List (String × Json) := []
  balances : Json := .object []
  pnl : Json := .object []
  prices : Json := .object []
  alerts : List Json := []
  seq : Json := .integer 0
  droppedCount : Json := .integer 0

/-- `appendleft` on a `deque` of so many items: a full one loses its last. -/
def appendleft (maxlen : ℕ) (item : Json) (items : List Json) : List Json :=
  (item :: items).take maxlen

/-- `d[key] = value`, where a new key goes to the end. -/
def setItem (key : String) (value : Json) : List (String × Json) → List (String × Json)
  | [] => [(key, value)]
  | (name, old) :: rest =>
    if key = name then (name, value) :: rest else (name, old) :: setItem key value rest

def typeName : Json → String
  | .null => "NoneType"
  | .boolean _ => "bool"
  | .integer _ => "int"
  | .float _ => "float"
  | .string _ => "str"
  | .array _ => "list"
  | .object _ => "dict"

def noAttribute (j : Json) (name : String) : String :=
  "AttributeError: '" ++ typeName j ++ "' object has no attribute '" ++ name ++ "'"

/-- `get(key, default)` of a `dict`. -/
def get (members : List (String × Json)) (key : String) (default : Json) : Json :=
  (members.lookup key).getD default

/-- The items of an iterable; those of a `dict` are its keys. -/
def items? : Json → Option (List Json)
  | .array items => some items
  | .string text => some (text.toList.map fun c => .string (String.singleton c))
  | .object members => some (members.map fun m => .string m.1)
  | .null | .boolean _ | .integer _ | .float _ => none

/-- `d[key] = value`; the receiver reads no entry under a key that is not a text. -/
def setKey (d : List (String × Json)) (key value : Json) : Except String (List (String × Json)) :=
  match key with
  | .string name => .ok (setItem name value d)
  | .null | .boolean _ | .integer _ | .float _ => .ok d
  | .array _ | .object _ => .error ("TypeError: unhashable type: '" ++ typeName key ++ "'")

/-- The items of a sequence from number `i` on; what was set before an error stays. -/
def updateItems (d : List (String × Json)) (i : ℕ) :
    List Json → List (String × Json) × Option String
  | [] => (d, none)
  | item :: rest =>
    match items? item with
    | none =>
      (d, some ("TypeError: cannot convert dictionary update sequence element #" ++ Nat.repr i ++
        " to a sequence"))
    | some [key, value] =>
      match setKey d key value with
      | .ok d => updateItems d (i + 1) rest
      | .error raised => (d, some raised)
    | some items =>
      (d, some ("ValueError: dictionary update sequence element #" ++ Nat.repr i ++ " has length " ++
        Nat.repr items.length ++ "; 2 is required"))

/-- `dict.update`. -/
def update (d : List (String × Json)) : Json → List (String × Json) × Option String
  | .object members => (members.foldl (fun d m => setItem m.1 m.2 d) d, none)
  | data =>
    match items? data with
    | some items => updateItems d 0 items
    | none => (d, some ("TypeError: '" ++ typeName data ++ "' object is not iterable"))

namespace WsReceiver

/-- The branches under the lock, with the time a heartbeat is received. -/
def store (r : WsReceiver) (now : ℚ) (msgType : Option Json) (data : Json) :
    WsReceiver × Option String :=
  match msgType with
  | some (.string type) =>
    if type = "trade" then ({ r with trades := appendleft r.maxBuffer data r.trades }, none)
    else if type = "spreads" then
      let (spreads, raised) := update r.spreads data
      ({ r with spreads }, raised)
    else if type = "balances" then ({ r with balances := data }, none)
    else if type = "pnl" then ({ r with pnl := data }, none)
    else if type = "prices" then ({ r with prices := data }, none)
    else if type = "heartbeat" then
      match data with
      | .object members =>
        ({ r with
            lastHeartbeat := now
            seq := get members "seq" (.integer 0)
            droppedCount := get members "dropped_count" (.integer 0) }, none)
      | j => ({ r with lastHeartbeat := now }, some (noAttribute j "get"))
    else if type = "alert" then ({ r with alerts := appendleft 100 data r.alerts }, none)
    else (r, none)
  | _ => (r, none)

def onMessage (loads : String → Option Json) (r : WsReceiver) (now : ℚ) (message : String) :
    WsReceiver × Option String :=
  match loads message with
  | none => (r, none)
  | some (.object members) =>
    r.store now (members.lookup "type") (get members "data" (.object []))
  | some j => (r, some (noAttribute j "get"))

def onOpen (r : WsReceiver) : WsReceiver := { r with connected := true, reconnectDelay := 1 }

/-- `_on_error` and `_on_close`. -/
def onClose (r : WsReceiver) : WsReceiver := { r with connected := false }

/-- `run` has slept for the delay. -/
def slept (r : WsReceiver) : WsReceiver := { r with reconnectDelay := min (r.reconnectDelay * 2) 30 }

/-- What the callbacks of the socket and the loop in `run` do to the receiver. -/
inductive SocketEvent where
  | message (now : ℚ) (text : String)
  | opened
  | closed
  | slept

def step (loads : String → Option Json) (r : WsReceiver) : SocketEvent → WsReceiver
  | .message now text => (r.onMessage loads now text).1
  | .opened => r.onOpen
  | .closed => r.onClose
  | .slept => r.slept

end WsReceiver

/-! ### The heat map (dashboard/components/spread_heatmap.py) -/

def exchangeNames : List String := ["BINANCE", "OKX", "BYBIT"]

/-- The cell of two different exchanges. -/
def netBps (pairSpreads : Json) (buyExch sellExch : String) : Json :=
  match (pairSpreads.member? (MessageTypes.route buyExch sellExch)).getD (.object []) with
  | .object info => get info "net_bps" (.integer 0)
  | _ => .integer 0

def heatmapRow (pairSpreads : Json) (buyExch : String) : List (Option Json) :=
  exchangeNames.map fun sellExch =>
    if buyExch = sellExch then none else some (netBps pairSpreads buyExch sellExch)

def spreadHeatmap (pairSpreads : Json) : List (List (Option Json)) :=
  exchangeNames.map (heatmapRow pairSpreads)

/-! ### The buffers -/

theorem appendleft_take (maxlen : ℕ) (item : Json) (items : List Json) :
    appendleft maxlen item (items.take maxlen) = (item :: items).take maxlen := by
  unfold appendleft
  cases maxlen with
  | zero => rfl
  | succ n => rw [List.take_succ_cons, List.take_succ_cons, List.take_take, min_eq_left n.le_succ]

theorem lookup_setItem (key key' : String) (value : Json) (d : List (String × Json)) :
    (setItem key value d).lookup key' = if key' = key then some value else d.lookup key' := by
  induction d with
  | nil => exact Assignments.lookup_cons_if ..
  | cons entry rest ih =>
    obtain ⟨name, old⟩ := entry
    unfold setItem
    split
    next heq =>
      rw [Assignments.lookup_cons_if, Assignments.lookup_cons_if, ← heq]
      split
      · rfl
      · rfl
    next hne =>
      rw [Assignments.lookup_cons_if, Assignments.lookup_cons_if, ih]
      by_cases hname : key' = name
      · rw [if_pos hname, if_pos hname, if_neg fun heq => hne (heq.symm.trans hname)]
      · rw [if_neg hname, if_neg hname]

end CryptoArbBot.Dashboard
