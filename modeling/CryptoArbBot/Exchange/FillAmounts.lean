import CryptoArbBot.Exchange.Acknowledged
import CryptoArbBot.Exchange.QueryOrder

/-!
# The amounts of an order that is filled on placement

MEXC and Gate.io take the status of a placed order from the response and leave
its amounts there: the result says FILLED with quantity and price 0.
-/

namespace CryptoArbBot

section ByStatus
variable {idKey errorKey : String} {status : String → Option OrderStatus} {fills : List String}

end ByStatus

end CryptoArbBot
