import CryptoArbBot.Exchange.Responses

/-!
# Reading a queried order (exchange/*/*_rest.cpp)

The `query_order` decoders. Four of them assign to the result field by field
inside a `try` block, so that an exception leaves what was assigned before it.
-/

namespace CryptoArbBot

/-- `std::stod` of a text member, when there is one. -/
def Json.number? (j : Json) (key : String) : Except String (Option ℚ) :=
  match j.member? key with
  | none => .ok none
  | some v => do return some (← stod (← v.getString))

namespace Okx

def queriedEntry (parsed : Except String Json) : Except String (Option Json) := do
  let j ← parsed
  match j.member? "data" with
  | none => return none
  | some data => if data.empty then return none else return some (← data.first)

end Okx

namespace Bybit

def queriedEntry (parsed : Except String Json) : Except String (Option Json) := do
  let j ← parsed
  match (j.member? "result").bind (·.member? "list") with
  | none => return none
  | some list => if list.empty then return none else return some (← list.first)

end Bybit

namespace Mexc

end Mexc

namespace Gateio

end Gateio

end CryptoArbBot
