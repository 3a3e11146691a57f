import ArkadeSdk.Swap.QuoteBinding

/-! The deadlines of what a corridor hands back, and the windows that they leave. -/

namespace ArkadeSdk.Rfq

open WireFormat JsNumber JsCoercion BtcScript HexCodec
open Json (Value)

variable {L : ContractLibraries} {trader : Trader} {transport : RfqTransport}

end ArkadeSdk.Rfq
