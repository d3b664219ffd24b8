import Audr.Lib.CodeUnits
import Audr.Metering

/-! `mapping.ts` of the Merge Gateway adapter: what it reads of a result or a frame, and the
counters and cost a record has of it. -/

namespace Audr.MergeGateway

open Metering (LlmUsage Cost exclusive sumOf usd)

/-- `resource.provider` for every call. -/
def gatewayProvider : String := "merge-gateway"

/-- Written to `run.error_code` for a failed response. -/
def responseFailedCode : String := "MERGE_GATEWAY_RESPONSE_FAILED"

/-- What is reported under a name. Gateway reports what it cannot count as `null`. -/
inductive Reported where
  | absent
  | null
  | number (value : ℚ)
  deriving DecidableEq, Repr

/-- `value ?? undefined`. -/
def Reported.value : Reported → Option ℚ
  | .number value => some value
  | _ => none

structure GatewayUsage where
  inputTokens : Reported
  outputTokens : Reported
  cacheReadInputTokens : Reported
  cacheCreationInputTokens : Reported
  reasoningOutputTokens : Reported
  promptTokens : Reported
  cost : Reported
  deriving DecidableEq, Repr

/-- A response, the result for embeddings, or a frame of a stream. -/
structure GatewayResult where
  id : Option String
  object : Option String
  model : Option String
  vendor : Option String
  status : Option String
  usage : Option GatewayUsage
  deriving DecidableEq, Repr

/-- `usage?.name`. -/
def counter (usage : Option GatewayUsage) (field : GatewayUsage → Reported) : Reported := (usage.map field).getD .absent

/-- `responseUsage`. Where the cache reads are `null`, the input cannot exclude them. -/
def responseUsage (usage : Option GatewayUsage) : LlmUsage :=
  let cacheRead := counter usage GatewayUsage.cacheReadInputTokens
  let cacheWrite := counter usage GatewayUsage.cacheCreationInputTokens
  let reasoning := counter usage GatewayUsage.reasoningOutputTokens
  { inputTokens :=
      if cacheRead = .null then none
      else exclusive (counter usage GatewayUsage.inputTokens).value (sumOf cacheRead.value cacheWrite.value)
    outputTokens := exclusive (counter usage GatewayUsage.outputTokens).value (reasoning.value.getD 0)
    cacheReadTokens := cacheRead.value
    cacheWriteTokens := cacheWrite.value
    reasoningTokens := reasoning.value
    requests := 1 }

/-- `embeddingUsage`. -/
def embeddingUsage (usage : Option GatewayUsage) : LlmUsage :=
  ⟨(counter usage GatewayUsage.promptTokens).value, none, none, none, none, 1⟩

/-- `toCost`. -/
def toCost (usage : Option GatewayUsage) : Option Cost := (counter usage GatewayUsage.cost).value.map usd

/-- `fitsRunId`; the length is in code units. -/
def fitsRunId (id : String) : Bool := 8 ≤ (codeUnits id).length ∧ (codeUnits id).length ≤ 64

end Audr.MergeGateway
