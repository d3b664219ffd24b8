import Audr.Lib.Transition
import Audr.OpenRouter.Inspectors

/-! `meterStream`: the async generator behind a metered stream, and `cancel()`. One flag
says whether the stream still needs attention; the generator, the verdict of an inspection
and `cancel()` all write it. -/

namespace Audr.OpenRouter

open Transition (Run anyStep)

inductive IncompleteReason where
  | noUsage
  | errorFrame
  | ended
  | failed
  | abandoned
  | closed
  deriving DecidableEq, Repr

/-- How the loop over the native stream is being left when its iterator is closed. -/
inductive Leaving where
  | byReturn
  | byThrow
  deriving DecidableEq, Repr

/-- Where the generator stands. `skipped` is one that was closed before its body began. -/
inductive At (F : Type) where
  | unstarted
  | pulling
  | inspecting (frame : F) (verdict : Verdict)
  | yielded
  | closing (leaving : Leaving)
  | done
  | skipped
  deriving DecidableEq, Repr

/-- The variables of `meterStream` and of its generator, and a history: the frames the native
stream yielded, those the consumer received, whether the native stream said it was done, what
was handed to the building of a record, and what was reported incomplete. -/
structure Stream {F H : Type} (inspector : Inspector F H) where
  «open» : Bool
  failure : Bool
  inspector : inspector.State
  at_ : At F
  native : List F
  received : List F
  exhausted : Bool
  handed : List H
  reported : List IncompleteReason

/-- One thing that can happen: a call of the consumer on the generator while it is suspended,
a call of `cancel()` at any time, or a promise of the native stream or of an inspection that
settles. -/
inductive Act (F : Type) where
  | next
  | «return»
  | throw
  | cancel
  | yields (frame : F)
  | ends
  | throws
  | verdict
  | closes (throws : Bool)
  deriving DecidableEq, Repr

variable {F H : Type} {inspector : Inspector F H}

namespace Stream

def fresh (inspector : Inspector F H) : Stream inspector :=
  ⟨true, false, inspector.initial, .unstarted, [], [], false, [], []⟩

/-- `end`: the first call closes the stream and reports why. -/
def finish (reason : IncompleteReason) (s : Stream inspector) : Stream inspector :=
  if s.open then { s with «open» := false, reported := s.reported ++ [reason] } else s

/-- `yield frame`. -/
def yield (frame : F) (s : Stream inspector) : Stream inspector :=
  { s with at_ := .yielded, received := s.received ++ [frame] }

/-- One turn of the `for await` loop, up to its first wait. -/
def offer (frame : F) (s : Stream inspector) : Stream inspector :=
  let s := { s with native := s.native ++ [frame] }
  if s.open then
    let inspection := inspector.inspect s.inspector frame
    { s with
      inspector := inspection.state
      handed := s.handed ++ inspection.handed.toList
      at_ := .inspecting frame inspection.verdict }
  else yield frame s

/-- The rest of the turn, once `inspect` has resolved. -/
def settle (frame : F) (verdict : Verdict) (s : Stream inspector) : Stream inspector :=
  yield frame
    (match verdict with
      | .recorded => { s with «open» := false }
      | .noUsage => finish .noUsage s
      | .error => { s with failure := true }
      | .continue => s)

/-- After the loop: the `catch` and `finally` blocks. -/
def leave (reason : IncompleteReason) (s : Stream inspector) : Stream inspector :=
  { finish .abandoned (finish reason s) with at_ := .done }

/-- One step; `cancellable` says whether the native stream has a `cancel`. -/
def step (cancellable : Bool) (s : Stream inspector) : Act F → Option (Stream inspector)
  | .next =>
      match s.at_ with
      | .unstarted => some { s with at_ := .pulling }
      | .yielded => some { s with at_ := .pulling }
      | _ => none
  | .return =>
      match s.at_ with
      | .unstarted => some { s with at_ := .skipped }
      | .yielded => some { s with at_ := .closing .byReturn }
      | _ => none
  | .throw =>
      match s.at_ with
      | .unstarted => some { s with at_ := .skipped }
      | .yielded => some { s with at_ := .closing .byThrow }
      | _ => none
  | .cancel => if cancellable then some (finish .closed s) else none
  | .yields frame => if s.at_ matches .pulling then some (offer frame s) else none
  | .ends =>
      if s.at_ matches .pulling then
        some (leave (if s.failure then .errorFrame else .ended) { s with exhausted := true })
      else none
  | .throws => if s.at_ matches .pulling then some (leave .failed s) else none
  | .verdict =>
      match s.at_ with
      | .inspecting frame verdict => some (settle frame verdict s)
      | _ => none
  | .closes throws =>
      match s.at_ with
      | .closing .byReturn => some (leave (if throws then .failed else .abandoned) s)
      | .closing .byThrow => some (leave .failed s)
      | _ => none

/-- The stream is not cancelled while the frame that carries the usage is being recorded. -/
def keepsAccount (s : Stream inspector) : Act F → Bool
  | .cancel => !(s.open && s.at_ matches .inspecting _ .recorded)
  | _ => true

end Stream

/-- The frame the generator holds but has not yielded yet. -/
def At.held : At F → List F
  | .inspecting frame _ => [frame]
  | _ => []

def At.recording : At F → Bool
  | .inspecting _ .recorded => true
  | _ => false

namespace Stream

variable {cancellable : Bool} {s t : Stream inspector} {act : Act F}

/-- The consumer gets what the native stream yields, in the same order. -/
structure Relayed (s : Stream inspector) : Prop where
  order : s.received ++ s.at_.held = s.native
  done : s.exhausted = true → s.at_ = .done

/-- While the flag is set nothing was reported, and nothing handed on but by the inspection that
is going on; once it is cleared exactly one of the two has happened. -/
structure Accounted (s : Stream inspector) : Prop where
  opened : s.open = true → s.reported = [] ∧ s.handed.length = if s.at_.recording then 1 else 0
  closed : s.open = false → s.handed.length + s.reported.length = 1 ∧ s.at_.recording = false
  done : s.at_ = .done → s.open = false

theorem finish_at (reason : IncompleteReason) (s : Stream inspector) : (finish reason s).at_ = s.at_ := by
  unfold finish
  split <;> rfl

theorem finish_relay (reason : IncompleteReason) (s : Stream inspector) :
    (finish reason s).native = s.native ∧ (finish reason s).received = s.received ∧
      (finish reason s).exhausted = s.exhausted := by
  unfold finish
  split <;> exact ⟨rfl, rfl, rfl⟩

theorem finish_closed (reason : IncompleteReason) (s : Stream inspector) : (finish reason s).open = false := by
  unfold finish
  split
  · rfl
  next shut => exact Bool.of_not_eq_true shut

theorem finish_shut (reason : IncompleteReason) (shut : s.open = false) : finish reason s = s := by
  rw [finish, if_neg (by rw [shut]; exact Bool.false_ne_true)]

/-- The first `end` reports the stream; the account then stands. -/
theorem Accounted.finish (accounted : s.Accounted) (quiet : s.open = true → s.at_.recording = false)
    (reason : IncompleteReason) : (finish reason s).Accounted := by
  cases shut : s.open with
  | false =>
    rw [finish_shut reason shut]
    exact accounted
  | true =>
    obtain ⟨none, count⟩ := accounted.opened shut
    rw [quiet shut] at count
    have next : Stream.finish reason s = { s with «open» := false, reported := s.reported ++ [reason] } :=
      if_pos shut
    rw [next]
    refine ⟨nofun, fun _ => ⟨?_, quiet shut⟩, fun _ => rfl⟩
    simp [none, count]

/-- A closed stream is accounted for wherever the generator goes, but to an inspection. -/
theorem Accounted.move (accounted : s.Accounted) {place : At F} (before : s.at_.recording = false)
    (after : place.recording = false) (done : place = .done → s.open = false) :
    Accounted { s with at_ := place } := by
  refine ⟨fun opened => ?_, fun shut => ⟨(accounted.closed shut).1, after⟩, done⟩
  obtain ⟨none, count⟩ := accounted.opened opened
  rw [before] at count
  exact ⟨none, by rw [after]; exact count⟩

theorem Accounted.leave (accounted : s.Accounted) (quiet : s.at_.recording = false)
    (reason : IncompleteReason) : (leave reason s).Accounted := by
  have first := accounted.finish (fun _ => quiet) reason
  have second := first.finish (fun _ => by rw [finish_at]; exact quiet) .abandoned
  exact second.move (by rw [finish_at, finish_at]; exact quiet) rfl fun _ => finish_closed _ _

theorem Accounted.yield (accounted : s.Accounted) (quiet : s.at_.recording = false) (frame : F) :
    (yield frame s).Accounted := by
  have moved : Accounted { s with at_ := .yielded } := accounted.move quiet rfl nofun
  exact ⟨moved.opened, moved.closed, moved.done⟩

theorem Accounted.offer (accounted : s.Accounted) (quiet : s.at_.recording = false) (frame : F) :
    (offer frame s).Accounted := by
  cases opened : s.open with
  | false =>
    have next : Stream.offer frame s = Stream.yield frame { s with native := s.native ++ [frame] } :=
      if_neg (by rw [opened]; exact Bool.false_ne_true)
    rw [next]
    have same : Accounted { s with native := s.native ++ [frame] } :=
      ⟨accounted.opened, accounted.closed, accounted.done⟩
    exact same.yield quiet frame
  | true =>
    have next : Stream.offer frame s =
        { s with
          native := s.native ++ [frame]
          inspector := (inspector.inspect s.inspector frame).state
          handed := s.handed ++ (inspector.inspect s.inspector frame).handed.toList
          at_ := .inspecting frame (inspector.inspect s.inspector frame).verdict } := if_pos opened
    obtain ⟨none, count⟩ := accounted.opened opened
    rw [quiet] at count
    have law := (inspector.inspect s.inspector frame).law
    rw [next]
    refine ⟨fun _ => ⟨none, ?_⟩, fun shut => ?_, nofun⟩
    · simp only [List.length_append, count]
      cases handed : (inspector.inspect s.inspector frame).handed <;>
        cases verdict : (inspector.inspect s.inspector frame).verdict <;>
        simp [handed, verdict, At.recording] at law ⊢
    · rw [show s.open = false from shut] at opened
      cases opened

/-- When the verdict comes the frame is recorded, or the stream is reported, or it goes on. -/
theorem Accounted.settle (accounted : s.Accounted) {frame : F} {verdict : Verdict}
    (at_ : s.at_ = .inspecting frame verdict) : (settle frame verdict s).Accounted := by
  have other (quiet : verdict ≠ .recorded) : s.at_.recording = false := by
    rw [at_]
    cases verdict <;> first | rfl | exact absurd rfl quiet
  cases verdict with
  | «continue» => exact accounted.yield (other (by simp)) frame
  | error =>
    have moved := accounted.yield (other (by simp)) frame
    exact ⟨moved.opened, moved.closed, fun exhausted => by cases exhausted⟩
  | noUsage =>
    have told := accounted.finish (fun _ => other (by simp)) .noUsage
    exact told.yield (by rw [finish_at]; exact other (by simp)) frame
  | recorded =>
    have recording : s.at_.recording = true := by rw [at_]; rfl
    refine ⟨fun opened => (by cases opened), fun _ => ⟨?_, rfl⟩, fun exhausted => by cases exhausted⟩
    cases shut : s.open with
    | false =>
      rw [(accounted.closed shut).2] at recording
      cases recording
    | true =>
      obtain ⟨none, count⟩ := accounted.opened shut
      rw [recording] at count
      change s.handed.length + s.reported.length = 1
      rw [count, none]
      rfl

theorem Accounted.step (accounted : s.Accounted) (permitted : s.keepsAccount act = true)
    (taken : step cancellable s act = some t) : t.Accounted := by
  cases act with
  | next =>
    cases at_ : s.at_ <;> simp only [Stream.step, at_] at taken <;> cases taken
    · exact accounted.move (by rw [at_]; rfl) rfl nofun
    · exact accounted.move (by rw [at_]; rfl) rfl nofun
  | «return» =>
    cases at_ : s.at_ <;> simp only [Stream.step, at_] at taken <;> cases taken
    · exact accounted.move (by rw [at_]; rfl) rfl nofun
    · exact accounted.move (by rw [at_]; rfl) rfl nofun
  | throw =>
    cases at_ : s.at_ <;> simp only [Stream.step, at_] at taken <;> cases taken
    · exact accounted.move (by rw [at_]; rfl) rfl nofun
    · exact accounted.move (by rw [at_]; rfl) rfl nofun
  | cancel =>
    simp only [Stream.step] at taken
    split at taken <;> cases taken
    refine accounted.finish (fun opened => ?_) .closed
    cases at_ : s.at_ with
    | inspecting frame verdict =>
      cases verdict <;> first | rfl | simp [keepsAccount, opened, at_] at permitted
    | _ => rfl
  | yields frame =>
    cases at_ : s.at_ <;> simp only [Stream.step, at_] at taken <;> cases taken
    exact accounted.offer (by rw [at_]; rfl) frame
  | ends =>
    cases at_ : s.at_ <;> simp only [Stream.step, at_] at taken <;> cases taken
    have here : Accounted { s with at_ := .pulling } := accounted.move (by rw [at_]; rfl) rfl nofun
    have same : Accounted { s with at_ := .pulling, exhausted := true } := ⟨here.opened, here.closed, nofun⟩
    exact same.leave rfl _
  | throws =>
    cases at_ : s.at_ <;> simp only [Stream.step, at_] at taken <;> cases taken
    exact accounted.leave (by rw [at_]; rfl) .failed
  | verdict =>
    cases at_ : s.at_ <;> simp only [Stream.step, at_] at taken <;> cases taken
    exact accounted.settle at_
  | closes throws =>
    cases at_ : s.at_ <;> simp only [Stream.step, at_] at taken
    case closing leaving =>
      cases leaving <;> cases taken <;> exact accounted.leave (by rw [at_]; rfl) _
    all_goals cases taken

/-- Whatever is cancelled when, a stream that goes on has handed nothing on but the frame that is
being recorded. -/
structure Frugal (s : Stream inspector) : Prop where
  once : s.handed.length ≤ 1
  first : s.open = true → s.at_.recording = false → s.handed = []

theorem finish_handed (reason : IncompleteReason) (s : Stream inspector) : (finish reason s).handed = s.handed := by
  unfold finish
  split <;> rfl

/-- Nothing is handed on where no frame is being recorded, unless the stream is offered one. -/
theorem Frugal.move (frugal : s.Frugal) (quiet : s.at_.recording = false) (handed : t.handed = s.handed)
    (opened : t.open = true → s.open = true) : t.Frugal where
  once := by
    rw [handed]
    exact frugal.once
  first going _ := by
    rw [handed]
    exact frugal.first (opened going) quiet

/-- A stream that is closed hands nothing on. -/
theorem Frugal.shut (frugal : s.Frugal) (handed : t.handed = s.handed) (shut : t.open = false) : t.Frugal where
  once := by
    rw [handed]
    exact frugal.once
  first going _ := by
    rw [shut] at going
    cases going

theorem Frugal.leave (frugal : s.Frugal) (reason : IncompleteReason) : (leave reason s).Frugal := by
  apply frugal.shut
  · change (finish .abandoned (finish reason s)).handed = s.handed
    rw [finish_handed, finish_handed]
  · exact finish_closed .abandoned (finish reason s)

theorem Frugal.offer (frugal : s.Frugal) (quiet : s.at_.recording = false) (frame : F) : (offer frame s).Frugal := by
  unfold Stream.offer
  dsimp only
  split
  next opened =>
    have none := frugal.first opened quiet
    have law := (inspector.inspect s.inspector frame).law
    constructor
    · rw [none, List.nil_append]
      cases (inspector.inspect s.inspector frame).handed <;> simp
    · intro _ unrecorded
      rw [none, List.nil_append]
      cases handed : (inspector.inspect s.inspector frame).handed with
      | none => rfl
      | some record =>
        rw [handed] at law
        cases verdict : (inspector.inspect s.inspector frame).verdict <;> simp [verdict, At.recording] at law unrecorded
  next shut => exact frugal.shut rfl (Bool.of_not_eq_true shut)

theorem Frugal.settle (frugal : s.Frugal) {frame : F} {verdict : Verdict} (at_ : s.at_ = .inspecting frame verdict) :
    (settle frame verdict s).Frugal := by
  unfold Stream.settle
  cases verdict with
  | recorded => exact frugal.shut rfl rfl
  | noUsage => exact frugal.shut (finish_handed .noUsage s) (finish_closed .noUsage s)
  | _ => exact frugal.move (by rw [at_]; rfl) rfl id

theorem Frugal.step (frugal : s.Frugal) (taken : step cancellable s act = some t) : t.Frugal := by
  cases act with
  | cancel =>
    simp only [Stream.step] at taken
    split at taken <;> cases taken
    exact frugal.shut (finish_handed .closed s) (finish_closed .closed s)
  | yields frame =>
    cases at_ : s.at_ <;> simp only [Stream.step, at_] at taken <;> cases taken
    exact frugal.offer (by rw [at_]; rfl) frame
  | ends =>
    cases at_ : s.at_ <;> simp only [Stream.step, at_] at taken <;> cases taken
    have same : Frugal { s with at_ := .pulling, exhausted := true } := frugal.move (by rw [at_]; rfl) rfl id
    exact same.leave _
  | throws =>
    cases at_ : s.at_ <;> simp only [Stream.step, at_] at taken <;> cases taken
    exact frugal.leave .failed
  | verdict =>
    cases at_ : s.at_ <;> simp only [Stream.step, at_] at taken <;> cases taken
    exact frugal.settle at_
  | closes throws =>
    cases at_ : s.at_ <;> simp only [Stream.step, at_] at taken
    case closing leaving =>
      cases leaving <;> cases taken <;> exact frugal.leave _
    all_goals cases taken
  | _ =>
    cases at_ : s.at_ <;> simp only [Stream.step, at_] at taken <;> cases taken
    · exact frugal.move (by rw [at_]; rfl) rfl id
    · exact frugal.move (by rw [at_]; rfl) rfl id

/-- Frames move from the native stream to the generator and on to the consumer. -/
theorem Relayed.step (relayed : s.Relayed) (taken : step cancellable s act = some t) : t.Relayed := by
  have order := relayed.order
  have going (other : s.at_ ≠ .done) : s.exhausted = false :=
    Bool.of_not_eq_true fun exhausted => other (relayed.done exhausted)
  have left {u : Stream inspector} (reason : IncompleteReason) (same : u.received = u.native) :
      (leave reason u).Relayed := by
    obtain ⟨native, received, _⟩ := finish_relay reason u
    obtain ⟨native', received', _⟩ := finish_relay .abandoned (finish reason u)
    refine ⟨?_, fun _ => rfl⟩
    change (finish .abandoned (finish reason u)).received ++ [] = (finish .abandoned (finish reason u)).native
    rw [List.append_nil, native', received', native, received, same]
  cases act with
  | next =>
    cases at_ : s.at_ <;> simp only [Stream.step, at_] at taken <;> cases taken <;> rw [at_] at order
    · exact ⟨order, fun exhausted => absurd exhausted (by simp [going (by rw [at_]; nofun)])⟩
    · exact ⟨order, fun exhausted => absurd exhausted (by simp [going (by rw [at_]; nofun)])⟩
  | «return» =>
    cases at_ : s.at_ <;> simp only [Stream.step, at_] at taken <;> cases taken <;> rw [at_] at order
    · exact ⟨order, fun exhausted => absurd exhausted (by simp [going (by rw [at_]; nofun)])⟩
    · exact ⟨order, fun exhausted => absurd exhausted (by simp [going (by rw [at_]; nofun)])⟩
  | throw =>
    cases at_ : s.at_ <;> simp only [Stream.step, at_] at taken <;> cases taken <;> rw [at_] at order
    · exact ⟨order, fun exhausted => absurd exhausted (by simp [going (by rw [at_]; nofun)])⟩
    · exact ⟨order, fun exhausted => absurd exhausted (by simp [going (by rw [at_]; nofun)])⟩
  | cancel =>
    simp only [Stream.step] at taken
    split at taken <;> cases taken
    obtain ⟨native, received, exhausted⟩ := finish_relay .closed s
    refine ⟨by rw [finish_at, native, received]; exact order, fun done => ?_⟩
    rw [finish_at]
    exact relayed.done (exhausted ▸ done)
  | yields frame =>
    cases at_ : s.at_ <;> simp only [Stream.step, at_] at taken <;> cases taken
    have live := going (by rw [at_]; nofun)
    rw [at_] at order
    have same : s.received = s.native := by simpa [At.held] using order
    unfold Stream.offer
    cases opened : s.open
    · exact ⟨by simp [Stream.yield, At.held, same], fun exhausted => absurd exhausted (by simp [Stream.yield, live])⟩
    · exact ⟨by simp [At.held, same], fun exhausted => absurd exhausted (by simp [live])⟩
  | ends =>
    cases at_ : s.at_ <;> simp only [Stream.step, at_] at taken <;> cases taken
    rw [at_] at order
    exact left _ (by simpa [At.held] using order)
  | throws =>
    cases at_ : s.at_ <;> simp only [Stream.step, at_] at taken <;> cases taken
    rw [at_] at order
    exact left _ (by simpa [At.held] using order)
  | verdict =>
    cases at_ : s.at_ <;> simp only [Stream.step, at_] at taken <;> cases taken
    rename_i frame verdict
    have live := going (by rw [at_]; nofun)
    rw [at_] at order
    have yielded {u : Stream inspector} (native : u.native = s.native) (received : u.received = s.received)
        (exhausted : u.exhausted = s.exhausted) : (Stream.yield frame u).Relayed := by
      refine ⟨?_, fun done => ?_⟩
      · simpa [Stream.yield, At.held, native, received] using order
      · rw [show u.exhausted = true from done, live] at exhausted
        cases exhausted
    unfold Stream.settle
    cases verdict with
    | noUsage =>
      obtain ⟨native, received, exhausted⟩ := finish_relay .noUsage s
      exact yielded native received exhausted
    | _ => exact yielded rfl rfl rfl
  | closes throws =>
    cases at_ : s.at_ <;> simp only [Stream.step, at_] at taken
    case closing leaving =>
      rw [at_] at order
      cases leaving <;> cases taken <;> exact left _ (by simpa [At.held] using order)
    all_goals cases taken

end Stream

/-- The states a metered stream can be in. -/
abbrev Metered (inspector : Inspector F H) (cancellable : Bool) (acts : List (Act F))
    (s : Stream inspector) : Prop :=
  Run (Stream.step cancellable) (fun s act => s.keepsAccount act = true) (Stream.fresh inspector) acts s

variable {cancellable : Bool} {acts : List (Act F)} {s : Stream inspector}

/-- In every run the consumer receives the native frames in order, and all of them when it reads
to the end, and at most one frame is handed on. -/
theorem frames_relayed (run : Run (Stream.step cancellable) anyStep (Stream.fresh inspector) acts s) :
    s.received <+: s.native ∧ (s.exhausted = true → s.received = s.native) ∧ s.handed.length ≤ 1 := by
  have both : s.Relayed ∧ s.Frugal := by
    apply run.invariant (fun s => s.Relayed ∧ s.Frugal) ⟨⟨rfl, nofun⟩, ⟨Nat.zero_le 1, fun _ _ => rfl⟩⟩
    intro before act after held _ taken
    obtain ⟨relayed, frugal⟩ := held
    exact ⟨relayed.step taken, frugal.step taken⟩
  obtain ⟨relayed, frugal⟩ := both
  refine ⟨⟨_, relayed.order⟩, fun exhausted => ?_, frugal.once⟩
  have order := relayed.order
  rw [relayed.done exhausted] at order
  simpa [At.held] using order

/-- Metering is transparent. The consumer receives the native frames in order, and all of
them when it reads to the end; at most one is handed on; and when an iteration has ended one
was handed on or the stream was reported once, and not both, unless the stream was cancelled
while the frame was being recorded. -/
theorem metering_transparent (run : Metered inspector cancellable acts s) :
    s.received <+: s.native ∧ (s.exhausted = true → s.received = s.native) ∧ s.handed.length ≤ 1 ∧
    (s.at_ = .done →
      (s.handed.length = 1 ∧ s.reported = []) ∨ (s.handed = [] ∧ s.reported.length = 1)) := by
  obtain ⟨prefixes, whole, once⟩ := frames_relayed (run.weaken fun _ _ _ => trivial)
  have accounted : s.Accounted := by
    apply run.invariant Stream.Accounted ⟨fun _ => ⟨rfl, rfl⟩, nofun, nofun⟩
    intro before act after accounted permitted taken
    exact accounted.step permitted taken
  refine ⟨prefixes, whole, once, fun done => ?_⟩
  have account := (accounted.closed (accounted.done done)).1
  cases handed : s.handed with
  | nil =>
    rw [handed, List.length_nil, Nat.zero_add] at account
    exact .inr ⟨rfl, account⟩
  | cons first rest =>
    rw [handed, List.length_cons] at account
    have none : s.reported = [] := List.eq_nil_of_length_eq_zero (by omega)
    exact .inl ⟨by simp only [List.length_cons]; omega, none⟩

/-! Runs on a chat stream of one usage chunk. -/

def usageChunk : Json Nat := .obj [("id", .str "gen-1"), ("usage", .obj [("promptTokens", .num 3)])]

/-- The stream is cancelled while the recording of the chunk waits for a lookup. -/
def cancelledActs : List (Act (Json Nat)) := [.next, .yields usageChunk, .cancel, .verdict, .next, .ends]

def cancelled : Stream (chat (N := Nat)) := 
  (Transition.execute (Stream.step true) (Stream.fresh chat) cancelledActs).getD (Stream.fresh chat)

/-- The chunk is recorded and the stream reported. -/
theorem recorded_and_reported :
    Run (Stream.step true) anyStep (Stream.fresh chat) cancelledActs cancelled ∧
      cancelled.at_ = .done ∧ cancelled.handed.length = 1 ∧ cancelled.reported = [.closed] :=
  ⟨Run.of_execute rfl, rfl, rfl, rfl⟩

/-- The same stream cancelled after the consumer has the chunk. -/
def readActs : List (Act (Json Nat)) := [.next, .yields usageChunk, .verdict, .cancel, .next, .ends]

def readThrough : Stream (chat (N := Nat)) :=
  (Transition.executeWithin (Stream.step true) (fun s act => s.keepsAccount act = true) (Stream.fresh chat)
    readActs).getD (Stream.fresh chat)

theorem metering_transparent_chat : readThrough.received = [usageChunk] ∧ readThrough.handed.length = 1 ∧
    readThrough.reported = [] := by
  have run : Metered chat true readActs readThrough := Run.of_executeWithin rfl
  obtain ⟨_, whole, _, account⟩ := metering_transparent run
  refine ⟨whole rfl, ?_⟩
  rcases account rfl with recorded | ⟨none, _⟩
  · exact recorded
  · cases none

/-- The last event of a response carries its usage. -/
def completed : Json Nat :=
  .obj [("type", .str "response.completed"), ("response", .obj [("usage", .obj [("inputTokens", .num 3)])])]

example : (Transition.execute (Stream.step false) (Stream.fresh responses)
    [.next, .yields completed, .verdict, .next, .ends]).map (fun s => (s.received, s.handed.length, s.reported)) =
      some ([completed], 1, []) := rfl

end Audr.OpenRouter
