import CryptoArbBot.Library.Runs
import CryptoArbBot.Persistence.LogRoundTrip

/-!
# Short writes to the trade log

`append_to_file` ignores how much `write` stored. The text that a torn write
leaves has no newline, so the next line goes on where it stops.
-/

namespace CryptoArbBot.TradeLogger

variable {dump : Json → String} {parse : String → Except String Json}

/-- `write` stores the line and its newline. -/
def Append.full (dump : Json → String) (call : Append × TradeRecord) : Bool :=
  match call.1 with
  | .unopened => false
  | .stored count => (jsonLine dump call.2 ++ "\n").length ≤ count

theorem full_stored {count : ℕ} {record : TradeRecord} :
    Append.full dump (.stored count, record) ↔ (jsonLine dump record ++ "\n").length ≤ count :=
  decide_eq_true_iff

def logStep (dump : Json → String) (file : Option String) (call : Append × TradeRecord) :
    Option String :=
  logTrade dump call.1 file call.2

theorem logTrades_eq_run (file : Option String) (calls : List (Append × TradeRecord)) :
    logTrades dump file calls = Runs.run (logStep dump) file calls :=
  (Runs.run_eq_foldl _ file calls).symm

def AtLineStart (file : Option String) : Prop :=
  ∀ c ∈ (file.getD "").toList.getLast?, c = '\n'

instance (file : Option String) : Decidable (AtLineStart file) :=
  inferInstanceAs (Decidable (∀ c ∈ (file.getD "").toList.getLast?, c = '\n'))

/-! ### The lines of the file -/

/-- The file holds the lines, each with its newline, and then a text without one. -/
structure Framed (file : Option String) (lines : List String) (tail : String) : Prop where
  text : (file.getD "").toList = (lines.flatMap fun line => line.toList ++ ['\n']) ++ tail.toList
  oneLine : ∀ line ∈ lines, '\n' ∉ line.toList
  unended : '\n' ∉ tail.toList

variable {file : Option String} {lines : List String} {tail : String}

theorem framed_none : Framed none [] "" := ⟨rfl, nofun, List.not_mem_nil⟩

theorem Framed.loaded (h : Framed file lines tail) :
    loadAllTrades parse file = (lines ++ [tail]).filterMap (loadLine parse) := by
  rw [loadAllTrades_getD, TextStream.ofString, h.text, TextStream.lines_framed h.oneLine h.unended]
  by_cases htail : tail = ""
  · rw [if_pos htail, htail, List.append_nil, List.filterMap_append]
    exact (List.append_nil _).symm
  · rw [if_neg htail]

theorem Framed.tail_empty (h : Framed file lines tail) (hstart : AtLineStart file) : tail = "" := by
  by_contra hne
  have hlist : tail.toList ≠ [] := by simpa using hne
  have hlast := hstart (tail.toList.getLast hlist)
  rw [h.text, List.getLast?_append_of_ne_nil _ hlist, List.getLast?_eq_some_getLast hlist] at hlast
  exact h.unended (hlast rfl ▸ List.getLast_mem hlist)

/-- A full write ends the line that the file was in. -/
theorem Framed.log_full (h : Framed file lines tail) {call : Append × TradeRecord}
    (hdump : '\n' ∉ (jsonLine dump call.2).toList) (hfull : Append.full dump call) :
    Framed (logStep dump file call) (lines ++ [tail ++ jsonLine dump call.2]) "" := by
  obtain ⟨append, record⟩ := call
  cases append with
  | unopened => cases hfull
  | stored count =>
    have hlength := full_stored.mp hfull
    rw [length_stored] at hlength
    refine ⟨?_, ?_, List.not_mem_nil⟩
    · rw [logStep, logTrade_stored, List.take_of_length_le hlength, h.text, List.flatMap_append,
        List.flatMap_singleton, String.toList_append]
      simp
    · intro line hline
      rcases List.mem_append.mp hline with hline | hlast
      · exact h.oneLine line hline
      · rw [List.mem_singleton.mp hlast, String.toList_append, List.mem_append, not_or]
        exact ⟨h.unended, hdump⟩

theorem Framed.log_part (h : Framed file lines tail) {count : ℕ} {record : TradeRecord}
    (hdump : '\n' ∉ (jsonLine dump record).toList)
    (hcount : count ≤ (jsonLine dump record).toList.length) :
    Framed (logStep dump file (.stored count, record)) lines
      (tail ++ String.ofList ((jsonLine dump record).toList.take count)) := by
  refine ⟨?_, h.oneLine, ?_⟩
  · rw [logStep, logTrade_stored, List.take_append_of_le_length hcount, h.text,
      String.toList_append, String.toList_ofList, List.append_assoc]
  · rw [String.toList_append, String.toList_ofList, List.mem_append, not_or]
    exact ⟨h.unended, fun hmem => hdump (List.mem_of_mem_take hmem)⟩

/-- What a short write stores has no newline. -/
theorem Framed.log_torn (h : Framed file lines tail) {call : Append × TradeRecord}
    (hdump : '\n' ∉ (jsonLine dump call.2).toList) (hfull : ¬ Append.full dump call) :
    ∃ part, Framed (logStep dump file call) lines (tail ++ part) := by
  obtain ⟨append, record⟩ := call
  cases append with
  | unopened => exact ⟨"", by rw [String.append_empty]; exact h⟩
  | stored count =>
    have hlength := not_le.mp fun hle => hfull (full_stored.mpr hle)
    rw [length_stored, List.length_append, List.length_singleton, Nat.lt_succ_iff] at hlength
    exact ⟨_, h.log_part hdump hlength⟩

/-- A line that goes on from a torn one is lost with it. -/
theorem Framed.merged_lost (h : Framed file lines tail) {call : Append × TradeRecord}
    (hdump : '\n' ∉ (jsonLine dump call.2).toList) (hfull : Append.full dump call)
    (hreject : loadLine parse (tail ++ jsonLine dump call.2) = none) :
    loadAllTrades parse (logStep dump file call) = lines.filterMap (loadLine parse) := by
  rw [(h.log_full hdump hfull).loaded, List.append_assoc, List.filterMap_append,
    List.singleton_append, List.filterMap_cons_none hreject]
  exact List.append_nil _

/-! ### The records that stay -/

def fullRecords (dump : Json → String) (calls : List (Append × TradeRecord)) : List TradeRecord :=
  (calls.filter (Append.full dump)).map (·.2)

/-- The records whose lines were written in full from the start of a line. -/
def intactRecords (dump : Json → String) : Option String → List (Append × TradeRecord) →
    List TradeRecord
  | _, [] => []
  | file, call :: calls =>
    (if Append.full dump call ∧ AtLineStart file then [call.2] else []) ++
      intactRecords dump (logStep dump file call) calls

structure Loadable (dump : Json → String) (parse : String → Except String Json)
    (record : TradeRecord) : Prop where
  dumps : Dumps dump parse record
  buyExchange : record.buyExchange ≠ .count
  sellExchange : record.sellExchange ≠ .count

/-- In every run the intact records are loaded in order. -/
theorem intactRecords_loaded (hempty : ∀ j, parse "" ≠ .ok j) {calls : List (Append × TradeRecord)}
    (hcalls : ∀ call ∈ calls, Loadable dump parse call.2) (h : Framed file lines tail) :
    (lines.filterMap (loadLine parse) ++ intactRecords dump file calls).Sublist
      (loadAllTrades parse (Runs.run (logStep dump) file calls)) := by
  induction calls generalizing file lines tail with
  | nil =>
    rw [intactRecords, List.append_nil, Runs.run_nil, h.loaded, List.filterMap_append]
    exact List.sublist_append_left ..
  | cons call calls ih =>
    obtain ⟨hcall, hcalls⟩ := List.forall_mem_cons.mp hcalls
    rw [Runs.run_cons, intactRecords]
    by_cases hfull : Append.full dump call
    · have hnext := ih hcalls (h.log_full hcall.dumps.oneLine hfull)
      rw [List.filterMap_append, List.append_assoc] at hnext
      by_cases hstart : AtLineStart file
      · rw [h.tail_empty hstart, String.empty_append, List.filterMap_cons,
          loadLine_jsonLine hempty hcall.dumps hcall.buyExchange hcall.sellExchange] at hnext
        rw [if_pos ⟨hfull, hstart⟩]
        exact hnext
      · -- the line it went on from is lost
        rw [if_neg fun hboth => hstart hboth.2, List.nil_append]
        exact ((List.sublist_append_right _ _).append_left _).trans hnext
    · obtain ⟨part, htorn⟩ := h.log_torn hcall.dumps.oneLine hfull
      rw [if_neg fun hboth => hfull hboth.1, List.nil_append]
      exact ih hcalls htorn

theorem intactRecords_eq {calls : List (Append × TradeRecord)}
    (h : Runs.Along (logStep dump) (fun file call => Append.full dump call → AtLineStart file)
      file calls) : intactRecords dump file calls = fullRecords dump calls := by
  induction calls generalizing file with
  | nil => rfl
  | cons call calls ih =>
    rw [intactRecords, ih h.2, fullRecords, fullRecords]
    by_cases hfull : Append.full dump call
    · rw [if_pos ⟨hfull, h.1 hfull⟩, List.filter_cons_of_pos hfull]
      rfl
    · rw [if_neg fun hboth => hfull hboth.1, List.filter_cons_of_neg hfull, List.nil_append]

/-- In every run whose full writes all begin at the start of a line, the records
written in full are loaded in order. -/
theorem fullRecords_loaded (hempty : ∀ j, parse "" ≠ .ok j) (calls : List (Append × TradeRecord))
    (hcalls : ∀ call ∈ calls, Loadable dump parse call.2)
    (hstart : Runs.Along (logStep dump)
      (fun file call => Append.full dump call → AtLineStart file) none calls) :
    (fullRecords dump calls).Sublist (loadAllTrades parse (logTrades dump none calls)) := by
  rw [logTrades_eq_run, ← intactRecords_eq hstart]
  exact intactRecords_loaded hempty hcalls framed_none

def fullWrite : Append × TradeRecord := (.stored (rejectedSellLine ++ "\n").length, rejectedSell)

/-- Only the opening brace is stored. -/
def tornWrite : Append × TradeRecord := (.stored 1, rejectedSell)

theorem jsonLine_rejectedSell : jsonLine dumpRejectedSell rejectedSell = rejectedSellLine := rfl

theorem full_fullWrite : Append.full dumpRejectedSell fullWrite :=
  full_stored.mpr (by rw [jsonLine_rejectedSell])

theorem not_full_tornWrite : ¬ Append.full dumpRejectedSell tornWrite := by
  obtain ⟨rest, hcons⟩ := rejectedSellLine_cons
  intro hfull
  have hlength := full_stored.mp hfull
  rw [length_stored, jsonLine_rejectedSell, hcons, List.length_append, List.length_cons,
    List.length_singleton] at hlength
  omega

theorem torn_last_loaded : (fullRecords dumpRejectedSell [fullWrite, tornWrite]).Sublist
    (loadAllTrades parseRejectedSell (logTrades dumpRejectedSell none [fullWrite, tornWrite])) := by
  refine fullRecords_loaded parseRejectedSell_empty _ ?_ ⟨fun _ => nofun, fun hfull => ?_, trivial⟩
  · intro call hcall
    have hrecord : call.2 = rejectedSell := by
      rcases List.mem_cons.mp hcall with rfl | hcall
      · rfl
      · rw [List.mem_singleton.mp hcall]
        rfl
    rw [hrecord]
    exact ⟨rejectedSell_dumps, by decide, by decide⟩
  · exact absurd hfull not_full_tornWrite

/-- The second record goes with the first. -/
theorem torn_first_lost : ¬ (fullRecords dumpRejectedSell [tornWrite, fullWrite]).Sublist
    (loadAllTrades parseRejectedSell (logTrades dumpRejectedSell none [tornWrite, fullWrite])) := by
  obtain ⟨rest, hcons⟩ := rejectedSellLine_cons
  have htorn : Framed (logStep dumpRejectedSell none tornWrite) []
      ("" ++ String.ofList (rejectedSellLine.toList.take 1)) := by
    refine framed_none.log_part rejectedSell_dumps.oneLine ?_
    rw [jsonLine_rejectedSell, hcons]
    exact Nat.succ_le_succ (Nat.zero_le _)
  have hreject : loadLine parseRejectedSell
      ("" ++ String.ofList (rejectedSellLine.toList.take 1) ++
        jsonLine dumpRejectedSell fullWrite.2) = none := by
    have hlonger : "" ++ String.ofList (rejectedSellLine.toList.take 1) ++
        jsonLine dumpRejectedSell fullWrite.2 ≠ rejectedSellLine := by
      intro heq
      have hlength := congrArg (fun text => text.toList.length) heq
      have hline : jsonLine dumpRejectedSell fullWrite.2 = rejectedSellLine := rfl
      rw [hline] at hlength
      simp [hcons] at hlength
    unfold loadLine parseRejectedSell
    rw [if_neg hlonger]
    split
    · rfl
    · rfl
  have hlost : loadAllTrades parseRejectedSell
      (logStep dumpRejectedSell (logStep dumpRejectedSell none tornWrite) fullWrite) = [] :=
    htorn.merged_lost rejectedSell_dumps.oneLine full_fullWrite hreject
  have hrun : logTrades dumpRejectedSell none [tornWrite, fullWrite] =
      logStep dumpRejectedSell (logStep dumpRejectedSell none tornWrite) fullWrite := rfl
  rw [hrun, hlost, fullRecords, List.filter_cons_of_neg not_full_tornWrite,
    List.filter_cons_of_pos full_fullWrite]
  intro hsub
  cases hsub

end CryptoArbBot.TradeLogger
