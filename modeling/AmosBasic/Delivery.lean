import AmosBasic.Bank
import AmosBasic.Line
import AmosBasic.Note

namespace AmosBasic

inductive Delivery where
  | line (line : Line)
  | bank (content : BankContent)
  deriving DecidableEq

/-- The answer to a delivery: the receiver afterwards, its remarks, and the error if it refuses. -/
structure Receipt (σ : Type) where
  receiver : σ
  notes : List Note := []
  refusal : Option DecodeError := none

abbrev Sink (σ : Type) := σ → Delivery → Receipt σ

namespace Sink

def discard : Sink Unit := fun _ _ => { receiver := () }

def collect : Sink (Array Delivery) := fun received delivery => { receiver := received.push delivery }

end Sink

end AmosBasic
