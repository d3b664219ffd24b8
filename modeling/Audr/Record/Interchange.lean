import Audr.Record.Portable

/-! Records built in Python, as the TypeScript package reads them: what Python validates, it
accepts, but for what Python's own checks let through. -/

namespace Audr.Record

open Fields (present)
open JsRecord (Rule objectRule textRule enumRule amountRule integerRule)
open Vocabulary (word words)

variable {library : Library}

def LlmUsage.counts (usage : LlmUsage) : List Nat :=
  usage.inputTokens.toList ++ usage.outputTokens.toList ++ usage.cacheReadTokens.toList ++ usage.cacheWriteTokens.toList ++
    usage.reasoningTokens.toList ++ usage.requests.toList ++ usage.imagesProcessed.toList

/-- The whole numbers of a record, but for its extensions. -/
def AUDR.counts (record : AUDR) : List Nat :=
  record.timing.durationMs.toList ++ record.run.step.toList ++ record.usage.llm.toList.flatMap LlmUsage.counts ++
    record.usage.tool.toList.flatMap fun usage => usage.callCount.toList

def ToolCost.isEmpty (cost : ToolCost) : Bool :=
  cost.extra.entries.isEmpty && cost.type.isNone && cost.callCost.isNone && cost.sandboxCost.isNone

theorem attribution_separate (attribution : Attribution) : Separate attribution.dumpFields [] :=
  separate_nil (by simp [Attribution.dumpFields])

theorem llmUsage_separate (usage : LlmUsage) : Separate usage.fields usage.extra.entries :=
  usage.extra.separate (by simp [LlmUsage.fields]) (by simp [NoExtension, LlmUsage.fields])

theorem toolUsage_separate (usage : ToolUsage) : Separate usage.fields usage.extra.entries :=
  usage.extra.separate (by simp [ToolUsage.fields]) (by simp [NoExtension, ToolUsage.fields])

theorem toolCost_separate (cost : ToolCost) : Separate cost.fields cost.extra.entries :=
  cost.extra.separate (by simp [ToolCost.fields]) (by simp [NoExtension, ToolCost.fields])

end Audr.Record
