import Audr.Lib.Double

/-! The counters of a model call as AUDR has them: input without cache reads and writes, output
without reasoning. -/

namespace Audr.Metering

structure LlmUsage where
  inputTokens : Option ℚ
  outputTokens : Option ℚ
  cacheReadTokens : Option ℚ
  cacheWriteTokens : Option ℚ
  reasoningTokens : Option ℚ
  requests : Nat
  deriving DecidableEq, Repr

/-- `exclusive`: a total less a part of it, never below zero. -/
def exclusive (total : Option ℚ) (part : ℚ) : Option ℚ := total.map fun total => max (Double.nearest (total - part)) 0

/-- `(a ?? 0) + (b ?? 0)`. -/
def sumOf (a b : Option ℚ) : ℚ := Double.nearest (a.getD 0 + b.getD 0)

/-- A cost in USD. -/
structure Cost where
  totalCost : ℚ
  currency : String
  deriving DecidableEq, Repr

def usd (total : ℚ) : Cost := ⟨total, "USD"⟩

end Audr.Metering
