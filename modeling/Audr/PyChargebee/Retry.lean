import Audr.Chargebee.Responses
import Audr.Python
import Mathlib.Tactic.NormNum

/-! The retry policy of the Python sink. Its numbers are `int` or `float`, and some of the
operations that compute a delay raise. -/

namespace Audr.PyChargebee

open Python (Exception)
open Chargebee (FailureClass classifyBy transientStatuses)

/-- `classify`. -/
def classify : Nat → FailureClass := classifyBy transientStatuses

/-- A finite number of the policy. -/
inductive Finite where
  | int (value : Int)
  | float (value : ℚ)
  deriving DecidableEq

def Finite.value : Finite → ℚ
  | .int value => value
  | .float value => value

@[simp] theorem Finite.value_int (n : Int) : (Finite.int n).value = n := rfl

@[simp] theorem Finite.value_float (q : ℚ) : (Finite.float q).value = q := rfl

/-- `float(n)` raises for integers that would be rounded to `2 ** 1024` or beyond. -/
def intTooLarge (n : Int) : Bool := decide (2 ^ 1024 - 2 ^ 970 ≤ |n|)

/-- `math.isfinite` raises for the integers no float holds. -/
def Finite.convertible : Finite → Bool
  | .int value => !intTooLarge value
  | .float _ => true

/-- `RetryPolicy`, with what `__post_init__` checks. -/
structure RetryPolicy where
  maxAttempts : Nat
  initialBackoff : Finite
  maxBackoff : Finite
  multiplier : Finite
  attempts_pos : 1 ≤ maxAttempts
  convertible : ∀ number ∈ [initialBackoff, maxBackoff, multiplier], number.convertible = true
  initial_nonneg : 0 ≤ initialBackoff.value
  max_nonneg : 0 ≤ maxBackoff.value
  multiplier_ge : 1 ≤ multiplier.value

/-- The defaults of `RetryPolicy`. -/
def RetryPolicy.standard : RetryPolicy where
  maxAttempts := 3
  initialBackoff := .float (1 / 2)
  maxBackoff := .float 30
  multiplier := .float 2
  attempts_pos := Nat.succ_pos 2
  convertible := by decide
  initial_nonneg := by norm_num
  max_nonneg := by norm_num
  multiplier_ge := by norm_num

/-- What the standard library decides: powers of floats (`none` where `**` raises), a draw
of `random.uniform(0.0, ceiling)`, `int(text)` (`none` for a `ValueError`), the seconds
until the date `parsedate_to_datetime(text)` names (`none` where it refuses), and `str` of a
parsed value, which raises where the nesting is too deep to print. -/
structure Library where
  pow : ℚ → Nat → Option ℚ
  uniform : ℚ → ℚ
  int : String → Option Int
  secondsUntil : String → Option ℚ
  str : Python.Value → Except Exception String

/-- A product of two floats: `none` is infinity. -/
def floatProduct (x y : ℚ) : Option ℚ :=
  if Double.bound ≤ Double.nearest (x * y) then none else some (Double.nearest (x * y))

/-- `initial_backoff * multiplier ** (attempt - 1)`, where `none` is infinity. -/
def exponential (lib : Library) (p : RetryPolicy) (attempt : Nat) : Except Exception (Option ℚ) :=
  match p.multiplier with
  | .int m =>
      let power : Int := m ^ (attempt - 1)
      match p.initialBackoff with
      | .int i => .ok (some (i * power : Int))
      | .float i =>
          if intTooLarge power then .error .overflowError else .ok (floatProduct i (Double.nearest power))
  | .float m =>
      match lib.pow m (attempt - 1) with
      | none => .error .overflowError
      | some power => .ok (floatProduct (Double.nearest p.initialBackoff.value) power)

/-- `jittered_backoff`. -/
def jitteredBackoff (lib : Library) (p : RetryPolicy) (attempt : Nat) : Except Exception ℚ :=
  match exponential lib p attempt with
  | .error exception => .error exception
  | .ok none => .ok (lib.uniform p.maxBackoff.value)
  | .ok (some backoff) => .ok (lib.uniform (min p.maxBackoff.value backoff))

/-- `_parse_retry_after`. -/
def parseRetryAfter (lib : Library) : Option String → Except Exception (Option ℚ)
  | none => .ok none
  | some text =>
      match lib.int text with
      | some seconds =>
          if intTooLarge seconds then .error .overflowError else .ok (some (max 0 (Double.nearest seconds)))
      | none => .ok ((lib.secondsUntil text).map (max 0))

/-- `delay_for`. -/
def delayFor (lib : Library) (p : RetryPolicy) (attempt : Nat) (retryAfter : Option String) :
    Except Exception ℚ :=
  match jitteredBackoff lib p attempt with
  | .error exception => .error exception
  | .ok jittered =>
      match parseRetryAfter lib retryAfter with
      | .error exception => .error exception
      | .ok none => .ok jittered
      | .ok (some hint) => .ok (min p.maxBackoff.value (max jittered hint))

/-- `multiplier ** (attempt - 1)` is computed, and is a float where it is multiplied by one. -/
def PowerFits (lib : Library) (p : RetryPolicy) (attempt : Nat) : Prop :=
  match p.multiplier, p.initialBackoff with
  | .int _, .int _ => True
  | .int m, .float _ => intTooLarge (m ^ (attempt - 1)) = false
  | .float m, _ => lib.pow m (attempt - 1) ≠ none

/-- An integer in a `Retry-After` header is one that some float holds. -/
def HintFits (lib : Library) (header : Option String) : Prop :=
  ∀ text seconds, header = some text → lib.int text = some seconds → intTooLarge seconds = false

variable {lib : Library} {p : RetryPolicy}

theorem exponential_ok (attempt : Nat) :
    (∃ backoff, exponential lib p attempt = .ok backoff) ↔ PowerFits lib p attempt := by
  unfold exponential PowerFits
  cases p.multiplier with
  | int m =>
    cases p.initialBackoff with
    | int i => simp
    | float i =>
      simp only
      split <;> simp_all
  | float m =>
    simp only
    cases lib.pow m (attempt - 1) <;> simp

theorem parseRetryAfter_ok (header : Option String) :
    (∃ hint, parseRetryAfter lib header = .ok hint) ↔ HintFits lib header := by
  unfold HintFits parseRetryAfter
  cases header with
  | none => simp
  | some text =>
    have header : (∀ text' seconds, some text = some text' → lib.int text' = some seconds →
        intTooLarge seconds = false) ↔ ∀ seconds, lib.int text = some seconds → intTooLarge seconds = false := by
      constructor
      · intro fits seconds read
        exact fits text seconds rfl read
      · rintro fits _ seconds ⟨⟩ read
        exact fits seconds read
    rw [header]
    cases read : lib.int text with
    | none => simp [read]
    | some seconds => cases large : intTooLarge seconds <;> simp [read, large]

/-- A delay is computed exactly when neither the power nor the hint overflows. -/
theorem delayFor_ok (attempt : Nat) (header : Option String) :
    (∃ delay, delayFor lib p attempt header = .ok delay) ↔ PowerFits lib p attempt ∧ HintFits lib header := by
  rw [← exponential_ok, ← parseRetryAfter_ok]
  unfold delayFor jitteredBackoff
  cases exponential lib p attempt with
  | error exception => simp
  | ok backoff =>
    cases parseRetryAfter lib header with
    | error exception => cases backoff <;> simp
    | ok hint => cases backoff <;> cases hint <;> simp

end Audr.PyChargebee
