import Audr.VercelAi.Attribution
import Audr.VercelAi.Mapping

/-! `attribution.ts` and `mapping.ts` of the Mastra adapter. What they share with the Vercel AI
adapter is used from there. -/

namespace Audr.Mastra

open JsRecord (Value)
open VercelAi (Attribution LlmUsage stringFields isText pickedLabels mergeAttribution counter subtract)

/-- Written to `run.error_code` on a failed model inference or embedding. -/
def modelErrorCode : String := "MASTRA_MODEL_ERROR"

/-- Written to `run.error_code` on a failed tool call. -/
def toolErrorCode : String := "MASTRA_TOOL_ERROR"

/-- `resource.provider` for every tool Mastra executes. -/
def toolProvider : String := "self-hosted"

/-- `value?.name`. -/
def member (name : String) : Value → Value
  | .object _ members => Value.field name members
  | _ => .undefined

/-- `nonEmpty`. -/
def nonEmpty : Value → Option String
  | .string text => if text = "" then none else some text
  | _ => none

/-- `readMetadataAttribution`: an own `audr` that is a plain object. -/
def readMetadataAttribution (metadata : Value) : Option Attribution :=
  match member "audr" metadata with
  | .object true audr =>
      let texts := stringFields.filterMap fun key =>
        let value := Value.field key audr
        if isText value then some (key, value) else none
      some (texts ++ pickedLabels audr)
  | _ => none

inductive Resolution where
  | resolved (attribution : Attribution)
  | unresolved

/-- `resolveAttribution`; `none` where it throws: on `null`, and where reading the metadata does. -/
def resolveAttribution (metadata : Option Value) (defaults : Option Attribution) : Option Resolution :=
  match metadata with
  | none | some .null => none
  | some metadata =>
      let attribution := mergeAttribution defaults (readMetadataAttribution metadata)
      some (if (Value.field "environment" attribution).isDefined then .resolved attribution else .unresolved)

/-- `toLlmUsage`: input without cache reads and writes, output without reasoning. -/
def toLlmUsage (usage : Value) : LlmUsage :=
  let cacheRead := counter (member "cacheRead" (member "inputDetails" usage))
  let cacheWrite := counter (member "cacheWrite" (member "inputDetails" usage))
  let reasoning := counter (member "reasoning" (member "outputDetails" usage))
  { inputTokens := subtract (counter (member "inputTokens" usage))
      (Double.nearest (cacheRead.getD 0 + cacheWrite.getD 0))
    outputTokens := subtract (counter (member "outputTokens" usage)) (reasoning.getD 0)
    cacheReadTokens := cacheRead
    cacheWriteTokens := cacheWrite
    reasoningTokens := reasoning
    requests := 1 }

/-- `providerSlug`, kept identical to that of the Vercel AI adapter. -/
def providerSlug (toLowerCase : String → String) : Value → Option String
  | .string provider => VercelAi.providerSlug toLowerCase provider
  | _ => none

/-- An end of a span: a `Date`, a text with the date that is parsed from it, each `none` where it
is an invalid one, or something else. Dates are in milliseconds since 1970. -/
inductive SpanTime where
  | date (time : Option ℤ)
  | text (parsed : Option ℤ)
  | other

def toDate : SpanTime → Option ℤ
  | .date time => time
  | .text parsed => parsed
  | .other => none

structure Timing where
  eventTime : ℤ
  durationMs : Option ℤ
  deriving DecidableEq

/-- `spanTiming`: the span's end as the event time, and its duration when both ends are valid. -/
def spanTiming (startTime endTime : SpanTime) (now : ℤ) : Timing :=
  let start := toDate startTime
  let finish := toDate endTime
  { eventTime := (finish.or start).getD now
    durationMs :=
      match start, finish with
      | some start, some finish => if finish ≥ start then some (finish - start) else none
      | _, _ => none }

end Audr.Mastra
