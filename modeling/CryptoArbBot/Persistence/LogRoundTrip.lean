import CryptoArbBot.Persistence.TradeLogger

/-!
# Reading the trade log back

A record survives `to_json` and `from_json` when its exchanges are real ones: the
two list the same keys, so no default is used, and the names of statuses and
modes are parsed back. A dump without a raw newline is then one line of the file.
-/

namespace CryptoArbBot.TradeLogger

/-! ### One record -/

@[simp] theorem parseOrderStatus_toString (status : OrderStatus) :
    parseOrderStatus status.toString = status := by
  cases status <;> decide

@[simp] theorem parseMode_toString (mode : TradingMode) : parseMode mode.toString = mode := by
  cases mode <;> decide

theorem readResult_of_member {j : Json} {key : String} {r : OrderResult}
    (h : j.member? key = some (resultJson r)) : readResult j key = .ok r := by
  unfold readResult
  rw [h]
  simp [resultJson, Json.valueString, Json.valueDouble, Json.valueAs_ofInitializerList,
    Json.getString, Json.getDouble, bind, Except.bind, pure, Except.pure]

theorem fromJson_toJson {record : TradeRecord} (hbuy : record.buyExchange ≠ .count)
    (hsell : record.sellExchange ≠ .count) : fromJson (toJson record) = .ok record := by
  have hbuyResult : readResult (toJson record) "buy_result" = .ok record.buyResult := by
    refine readResult_of_member ?_
    simp [toJson, Json.member?_ofInitializerList]
  have hsellResult : readResult (toJson record) "sell_result" = .ok record.sellResult := by
    refine readResult_of_member ?_
    simp [toJson, Json.member?_ofInitializerList]
  unfold fromJson
  rw [hbuyResult, hsellResult]
  simp [toJson, Json.valueString, Json.valueDouble, Json.valueAs_ofInitializerList,
    Json.getString, Json.getDouble, exchangeFromString_toString hbuy,
    exchangeFromString_toString hsell, bind, Except.bind, pure, Except.pure]

/-! ### The whole file -/

section File
variable {dump : Json → String} {parse : String → Except String Json}

def jsonLine (dump : Json → String) (record : TradeRecord) : String := dump (toJson record)

/-- `write` stores the line and its newline. -/
def Append.Complete (dump : Json → String) (call : Append × TradeRecord) : Prop :=
  call.1 = .stored (jsonLine dump call.2 ++ "\n").length

/-- What the log relies on for a record: `parse` inverts `dump` on its JSON, and the
dump holds no raw newline. -/
structure Dumps (dump : Json → String) (parse : String → Except String Json)
    (record : TradeRecord) : Prop where
  parsed : parse (jsonLine dump record) = .ok (toJson record)
  oneLine : '\n' ∉ (jsonLine dump record).toList

theorem loadAllTrades_getD (file : Option String) :
    loadAllTrades parse file =
      ((TextStream.ofString (file.getD "")).lines '\n').filterMap (loadLine parse) := by
  cases file with
  | none => rfl
  | some text => rfl

theorem logTrade_stored (count : ℕ) (record : TradeRecord) (file : Option String) :
    ((logTrade dump (.stored count) file record).getD "").toList =
      (file.getD "").toList ++ ((jsonLine dump record).toList ++ ['\n']).take count := by
  unfold logTrade appendToFile
  dsimp only
  rw [Option.getD_some, String.toList_append, String.toList_ofList, String.toList_append]
  rfl

theorem length_stored (record : TradeRecord) :
    (jsonLine dump record ++ "\n").length = ((jsonLine dump record).toList ++ ['\n']).length := by
  rw [← String.length_toList, String.toList_append]
  rfl

theorem logTrade_complete {call : Append × TradeRecord} (h : Append.Complete dump call)
    (file : Option String) :
    ((logTrade dump call.1 file call.2).getD "").toList =
      (file.getD "").toList ++ ((jsonLine dump call.2).toList ++ ['\n']) := by
  rw [h, logTrade_stored, length_stored, List.take_length]

theorem logTrades_complete {calls : List (Append × TradeRecord)}
    (h : ∀ call ∈ calls, Append.Complete dump call) (file : Option String) :
    ((logTrades dump file calls).getD "").toList =
      (file.getD "").toList ++
        (calls.map fun call => jsonLine dump call.2).flatMap fun line => line.toList ++ ['\n'] := by
  induction calls generalizing file with
  | nil => simp [logTrades]
  | cons call calls ih =>
    have hrest := ih (fun c hc => h c (List.mem_cons_of_mem _ hc)) (logTrade dump call.1 file call.2)
    rw [logTrade_complete (h call (List.mem_cons_self ..))] at hrest
    rw [List.map_cons, List.flatMap_cons, ← List.append_assoc]
    exact hrest

theorem loadLine_jsonLine (hempty : ∀ j, parse "" ≠ .ok j) {record : TradeRecord}
    (hdump : Dumps dump parse record) (hbuy : record.buyExchange ≠ .count)
    (hsell : record.sellExchange ≠ .count) :
    loadLine parse (jsonLine dump record) = some record := by
  have hparsed := hdump.parsed
  have hne : jsonLine dump record ≠ "" := by
    intro h
    rw [h] at hparsed
    exact hempty _ hparsed
  unfold loadLine
  rw [if_neg hne, hparsed]
  simp only [Except.bind, fromJson_toJson hbuy hsell, Except.toOption]

theorem totalRealizedPnl_eq (file : Option String) :
    totalRealizedPnl parse file = ((loadAllTrades parse file).map (·.realizedPnl)).sum := by
  unfold totalRealizedPnl
  rw [List.sum_eq_foldl, List.foldl_map]

theorem pnlForPair_eq (file : Option String) (pair : String) :
    pnlForPair parse file pair =
      (((loadAllTrades parse file).filter (·.pair = pair)).map (·.realizedPnl)).sum := by
  unfold pnlForPair
  rw [List.sum_eq_foldl, List.foldl_map, List.foldl_filter]
  simp only [decide_eq_true_eq]

/-- What was logged is what is loaded. -/
theorem loadAllTrades_logged (hempty : ∀ j, parse "" ≠ .ok j)
    (calls : List (Append × TradeRecord))
    (hcomplete : ∀ call ∈ calls, Append.Complete dump call)
    (hdumps : ∀ call ∈ calls, Dumps dump parse call.2)
    (hreal : ∀ call ∈ calls, call.2.buyExchange ≠ .count ∧ call.2.sellExchange ≠ .count) :
    loadAllTrades parse (logTrades dump none calls) = calls.map (·.2) ∧
      totalRealizedPnl parse (logTrades dump none calls) =
        (calls.map fun call => call.2.realizedPnl).sum := by
  have hlines : (TextStream.ofString ((logTrades dump none calls).getD "")).lines '\n' =
      calls.map fun call => jsonLine dump call.2 := by
    unfold TextStream.ofString
    rw [logTrades_complete hcomplete]
    refine TextStream.lines_terminated ?_
    intro line hline
    obtain ⟨call, hcall, rfl⟩ := List.mem_map.mp hline
    exact (hdumps call hcall).oneLine
  have hload : loadAllTrades parse (logTrades dump none calls) = calls.map (·.2) := by
    rw [loadAllTrades_getD, hlines, List.filterMap_map, ← List.filterMap_eq_map]
    refine List.filterMap_congr ?_
    intro call hcall
    exact loadLine_jsonLine hempty (hdumps call hcall) (hreal call hcall).1 (hreal call hcall).2
  refine ⟨hload, ?_⟩
  rw [totalRealizedPnl_eq, hload, List.map_map]
  rfl

end File

/-! ### A record whose texts need escapes -/

def rejectedSell : TradeRecord where
  id := "t1"
  pair := "BTC-USDT"
  buyExchange := .binance
  sellExchange := .okx
  buyPrice := 100
  sellPrice := 101
  quantity := 1
  grossSpreadBps := 100
  netSpreadBps := 80
  buyResult :=
    { exchangeOrderId := "b1", status := .filled, filledQuantity := 1, avgFillPrice := 100,
      feePaid := 1 / 8 }
  sellResult := { status := .rejected, errorMessage := "no \"size\"\nretry" }
  realizedPnl := -1 / 2
  timestampIso := "2026-01-01T00:00:00Z"
  mode := .paper

def rejectedSellPieces : List String := [
  "\x7b\"buy_exchange\":\"BINANCE\",\"buy_price\":100.0,\"buy_result\":",
  "\x7b\"avg_fill_price\":100.0,\"error_message\":\"\",\"exchange_order_id\":\"b1\",",
  "\"fee_paid\":0.125,\"filled_quantity\":1.0,\"status\":\"FILLED\"\x7d,",
  "\"gross_spread_bps\":100.0,\"id\":\"t1\",\"mode\":\"PAPER\",\"net_spread_bps\":80.0,",
  "\"pair\":\"BTC-USDT\",\"quantity\":1.0,\"realized_pnl\":-0.5,\"sell_exchange\":\"OKX\",",
  "\"sell_price\":101.0,\"sell_result\":",
  "\x7b\"avg_fill_price\":0.0,\"error_message\":\"no \\\"size\\\"\\nretry\",",
  "\"exchange_order_id\":\"\",\"fee_paid\":0.0,\"filled_quantity\":0.0,",
  "\"status\":\"REJECTED\"\x7d,\"timestamp\":\"2026-01-01T00:00:00Z\"\x7d"]

def rejectedSellLine : String := String.join rejectedSellPieces

def dumpRejectedSell (_ : Json) : String := rejectedSellLine

def parseRejectedSell (line : String) : Except String Json :=
  if line = rejectedSellLine then .ok (toJson rejectedSell)
  else .error "[json.exception.parse_error.101]"

theorem rejectedSellLine_cons : ∃ rest, rejectedSellLine.toList = '\x7b' :: rest := by
  rw [rejectedSellLine, String.toList_join, rejectedSellPieces, List.flatMap_cons]
  exact ⟨_, rfl⟩

theorem parseRejectedSell_empty (j : Json) : parseRejectedSell "" ≠ .ok j := by
  intro h
  have hne : "" ≠ rejectedSellLine := by
    intro heq
    obtain ⟨rest, hline⟩ := rejectedSellLine_cons
    rw [← heq] at hline
    cases hline
  unfold parseRejectedSell at h
  rw [if_neg hne] at h
  cases h

theorem rejectedSell_dumps : Dumps dumpRejectedSell parseRejectedSell rejectedSell := by
  refine ⟨if_pos rfl, ?_⟩
  show '\n' ∉ rejectedSellLine.toList
  have hpieces : ∀ piece ∈ rejectedSellPieces, '\n' ∉ piece.toList := by
    simp only [rejectedSellPieces, List.forall_mem_cons]
    refine ⟨?_, ?_, ?_, ?_, ?_, ?_, ?_, ?_, ?_, List.forall_mem_nil _⟩
    all_goals
      rw [String.toList_ofList]
      decide
  unfold rejectedSellLine
  rw [String.toList_join, List.mem_flatMap]
  rintro ⟨piece, hpiece, hmem⟩
  exact hpieces piece hpiece hmem

def loggedTwice : List (Append × TradeRecord) :=
  List.replicate 2 (.stored (rejectedSellLine ++ "\n").length, rejectedSell)

theorem rejectedSell_loaded :
    loadAllTrades parseRejectedSell (logTrades dumpRejectedSell none loggedTwice) =
        [rejectedSell, rejectedSell] ∧
      totalRealizedPnl parseRejectedSell (logTrades dumpRejectedSell none loggedTwice) = -1 := by
  have hmem : ∀ call ∈ loggedTwice,
      call = (.stored (rejectedSellLine ++ "\n").length, rejectedSell) :=
    fun call hcall => List.eq_of_mem_replicate hcall
  obtain ⟨hload, htotal⟩ := @loadAllTrades_logged dumpRejectedSell parseRejectedSell
    parseRejectedSell_empty loggedTwice
    (by intro call hcall; rw [hmem call hcall]; rfl)
    (by intro call hcall; rw [hmem call hcall]; exact rejectedSell_dumps)
    (by intro call hcall; rw [hmem call hcall]; exact ⟨by decide, by decide⟩)
  refine ⟨hload, htotal.trans ?_⟩
  show (-1 / 2 : ℚ) + (-1 / 2 + 0) = -1
  norm_num

end CryptoArbBot.TradeLogger
