import Audr.Pipeline.Conservation

/-! No queued record of the TypeScript pipeline is stranded: whenever control is with
the event loop a delivery is in progress or the timer is armed, and a drain never waits
for the timer. And a flush tells the truth about the records submitted before it. -/

namespace Audr.Pipeline

open Transition (Run anyStep)

variable {R : Type}

theorem Op.holds_of_fits {op : Op R} (fits : op.fits false = true) : op.holds = [] := by
  cases op <;> first | rfl | cases fits

namespace State

/-- What keeps a queue that is not empty moving, until the signal is aborted. -/
structure Moving (s : State R) : Prop where
  timer : s.lingerTimer = .cleared → s.aborted = true
  going : s.queue ≠ [] → s.delivering = true ∨ s.lingerTimer = .armed ∨ s.aborted = true
  prompt : 0 < s.drainers ∨ s.stopped = true → s.queue ≠ [] → s.delivering = true ∨ s.aborted = true
  drainers : s.drainers = s.drains.countP fun d => !d.settled

variable {s t : State R} {o : Options}

theorem Moving.congr (moving : s.Moving) (same : t.frame = s.frame) : t.Moving := by
  simp only [frame, outer, Frame.mk.injEq, Outer.mk.injEq] at same
  obtain ⟨⟨stopped, _, _, aborted, _, _, drainers, _⟩, queue, delivering, timer, drains⟩ := same
  refine ⟨?_, ?_, ?_, ?_⟩
  · rw [timer, aborted]
    exact moving.timer
  · rw [queue, delivering, timer, aborted]
    exact moving.going
  · rw [drainers, stopped, queue, delivering, aborted]
    exact moving.prompt
  · rw [drainers, drains]
    exact moving.drainers

theorem moving_started (timer : s.lingerTimer = .cleared → s.aborted = true) (busy : s.delivering = true)
    (drainers : s.drainers = s.drains.countP fun d => !d.settled) : (deliver o s).Moving :=
  ⟨timer, fun _ => .inl busy, fun _ _ => .inl busy, drainers⟩

/-- With nothing queued there is nothing to set in motion. -/
theorem moving_empty (timer : s.lingerTimer = .cleared → s.aborted = true) (empty : s.queue = [])
    (drainers : s.drainers = s.drains.countP fun d => !d.settled) : s.Moving :=
  ⟨timer, fun full => absurd empty full, fun _ full => absurd empty full, drainers⟩

/-- `#schedule` sets a queue in motion, whatever was the matter with it before. -/
theorem moving_schedule (timer : s.lingerTimer = .cleared → s.aborted = true)
    (drainers : s.drainers = s.drains.countP fun d => !d.settled) : (schedule o s).Moving := by
  rcases schedule_cases o s with ⟨same, idle⟩ | ⟨_, _, _, started⟩ | ⟨_, full, due, armed⟩
  · rw [same]
    refine ⟨timer, fun full => .inl ?_, fun _ full => .inl ?_, drainers⟩
    · exact idle.resolve_right full
    · exact idle.resolve_right full
  · rw [started]
    exact moving_started (by simp) rfl drainers
  · have waits : ¬ (0 < s.drainers ∨ s.stopped = true) := by
      simp only [batchDue, Bool.or_eq_false_iff, decide_eq_false_iff_not] at due
      rintro (some | stopped)
      · exact due.1.2 some
      · rw [due.2] at stopped
        cases stopped
    rw [armed]
    refine ⟨fun cleared => ?_, fun _ => ?_, fun some => absurd some waits, drainers⟩
    · cases handle : s.lingerTimer <;> simp [handle] at cleared
      exact timer handle
    · cases handle : s.lingerTimer
      · exact .inr (.inl rfl)
      · exact .inr (.inl rfl)
      · exact .inr (.inr (timer handle))

/-- Waking the drains settles none of them. -/
theorem wakeIdle_drainers (s : State R) :
    (wakeIdle s).drains.countP (fun d => !d.settled) = s.drains.countP fun d => !d.settled := by
  have settled : ∀ entry ∈ s.drains.zipIdx,
      (!(if entry.2 ∈ s.idleWaiters then { entry.1 with idle := true } else entry.1).settled) =
        !entry.1.settled := by
    intro entry _
    split_ifs <;> rfl
  have plain : s.drains.countP (fun d => !d.settled) =
      s.drains.zipIdx.countP fun entry => !entry.1.settled := by
    conv_lhs => rw [← List.zipIdx_map_fst 0 s.drains, List.countP_map]
    rfl
  rw [plain]
  simp only [wakeIdle, List.countP_map, Function.comp_def]
  exact List.countP_congr fun entry member => by rw [settled entry member]

/-- One drain fewer is unsettled, and one fewer is counted. -/
theorem countP_settle {drains : List Drain} {drain : Nat} {d : Drain} (found : drains[drain]? = some d)
    (waiting : d.settled = false) :
    (drains.set drain { d with settled := true }).countP (fun d => !d.settled) =
      drains.countP (fun d => !d.settled) - 1 := by
  obtain ⟨inside, entry⟩ := List.getElem?_eq_some_iff.mp found
  rw [List.countP_set inside, entry]
  simp [waiting]

/-- Marking one drain idle settles none. -/
theorem countP_idle (drains : List Drain) (drain : Nat) :
    (drains.modify drain fun d => { d with idle := true }).countP (fun d => !d.settled) =
      drains.countP fun d => !d.settled := by
  induction drains generalizing drain with
  | nil => simp
  | cons d rest ih =>
    cases drain with
    | zero => simp [List.countP_cons]
    | succ n => simp [List.countP_cons, ih]

theorem Moving.idleCheck (moving : s.Moving) (drain : Nat) : (idleCheck drain s).Moving := by
  unfold State.idleCheck
  split_ifs
  · exact ⟨moving.timer, moving.going, moving.prompt,
      moving.drainers.trans (countP_idle s.drains drain).symm⟩
  · exact ⟨moving.timer, moving.going, moving.prompt, moving.drainers⟩

theorem Moving.resumeRun (moving : s.Moving) (busy : s.delivering = true) : (resumeRun o s).Moving := by
  rcases resumeRun_cases o s with ⟨_, _, next⟩ | ⟨empty, woken⟩ | ⟨_, rescheduled⟩
  · rw [next]
    exact moving_started moving.timer busy moving.drainers
  · rw [woken]
    exact moving_empty moving.timer empty (moving.drainers.trans (wakeIdle_drainers _).symm)
  · rw [rescheduled]
    exact moving_schedule moving.timer moving.drainers

theorem Moving.startRun (moving : s.Moving) :
    (startRun o { s with lingerTimer := .unset }).Moving := by
  rcases startRun_cases o { s with lingerTimer := .unset } with
    ⟨same, busy⟩ | ⟨_, empty, woken⟩ | ⟨_, _, started⟩
  · rw [same]
    exact ⟨by simp, fun _ => .inl busy, fun _ _ => .inl busy, moving.drainers⟩
  · rw [woken]
    exact moving_empty (by simp [wakeIdle]) empty (moving.drainers.trans (wakeIdle_drainers _).symm)
  · rw [started]
    exact moving_started (by simp) rfl moving.drainers

theorem Moving.move [AudrRecord R] {act : Act R} (moving : s.Moving) (control : s.Control)
    (move : Move o s act t) : t.Moving := by
  rcases move.turn with same | turn
  · exact moving.congr same
  cases turn with
  | submit top =>
    rcases submit_cases o _ (s.pop _) with ⟨_, same⟩ | ⟨_, same⟩ <;> rw [same]
    · exact moving.congr rfl
    · exact moving_schedule moving.timer moving.drainers
  | idleCheck top =>
    apply Moving.idleCheck
    exact moving.congr rfl
  | assignStopping top => exact ⟨moving.timer, moving.going, moving.prompt, moving.drainers⟩
  | assignShutdown top => exact ⟨moving.timer, moving.going, moving.prompt, moving.drainers⟩
  | abandonOutstanding top => exact moving_empty moving.timer rfl moving.drainers
  | flush top =>
    rcases flush_cases o s with ⟨_, same⟩ | ⟨_, _, same⟩ <;> rw [same]
    · refine moving_schedule moving.timer ?_
      simp [List.countP_append, moving.drainers]
    · exact ⟨moving.timer, moving.going, moving.prompt, moving.drainers⟩
  | shutdown top =>
    rcases beginShutdown_cases o s with ⟨_, same⟩ | ⟨_, _, _, same⟩ | ⟨_, _, same⟩ <;> rw [same]
    · exact moving
    · exact moving.congr rfl
    · refine moving_schedule moving.timer ?_
      simp [stopping_, List.countP_append, moving.drainers]
  | lingerFires top armed => exact moving.startRun
  | runResumes top paused =>
    have located := control.located
    rw [paused] at located
    exact moving.resumeRun located.1
  | drainSettles top found waiting truthful =>
    refine ⟨moving.timer, moving.going, fun some full => ?_, ?_⟩
    · refine moving.prompt (some.imp_left fun some => ?_) full
      simp only at some
      omega
    · rw [countP_settle found waiting, moving.drainers]
  | stopAborts top found => exact ⟨fun _ => rfl, fun _ => .inr (.inr rfl), fun _ _ => .inr rfl, moving.drainers⟩
  | stopContinues top found past => exact ⟨moving.timer, moving.going, moving.prompt, moving.drainers⟩
  | stopWaitSettles top found truthful => exact ⟨moving.timer, moving.going, moving.prompt, moving.drainers⟩

/-! What flushes resolve to. -/

/-- Every record with a smaller reference has reached its terminal state. -/
def EndedBefore (bound : Nat) (s : State R) : Prop := ∀ ref < bound, ref ∈ s.settled.map Prod.fst

structure Truthful (s : State R) : Prop where
  drained : ∀ d ∈ s.drains, d.submittedBefore ≤ s.submitted ∧
    (d.idle = true → s.EndedBefore d.submittedBefore)
  waits : ∀ w ∈ s.stopWaits, w.submittedBefore ≤ s.submitted
  told : ∀ bound, (bound, true) ∈ s.flushed → s.EndedBefore bound

/-- Submissions and terminal states only accumulate. -/
structure Later (s t : State R) : Prop where
  submitted : s.submitted ≤ t.submitted
  ended : ∀ bound, s.EndedBefore bound → t.EndedBefore bound

theorem Books.later {new : Nat} (books : Books new s t) : Later s t where
  submitted := Accounts.issued_le books.steps
  ended _ ended ref below :=
    ((Accounts.closed_prefix books.steps).sublist.map Prod.fst).subset (ended ref below)

theorem ended_all (balanced : s.ledger.Balanced) (empty : s.held = 0) {bound : Nat}
    (below : bound ≤ s.submitted) : s.EndedBefore bound := fun _ smaller =>
  balanced.all_closed empty (Nat.lt_of_lt_of_le smaller below)

/-- What a step may add: a drain or a wait that has just begun, and a word about
records that have all ended; it may wake drains when nothing is outstanding after it. -/
theorem Truthful.grow (truthful : s.Truthful) (later : Later s t) (balanced : t.ledger.Balanced)
    (drains : ∀ d ∈ t.drains, (∃ before ∈ s.drains, d.submittedBefore = before.submittedBefore ∧
      (d.idle = true → before.idle = true ∨ t.held = 0)) ∨ (d.submittedBefore = s.submitted ∧ d.idle = false))
    (waits : ∀ w ∈ t.stopWaits, (∃ before ∈ s.stopWaits, w.submittedBefore = before.submittedBefore) ∨
      w.submittedBefore = s.submitted)
    (told : ∀ bound, (bound, true) ∈ t.flushed → (bound, true) ∈ s.flushed ∨ t.EndedBefore bound) :
    t.Truthful := by
  refine ⟨fun d member => ?_, fun w member => ?_, fun bound member => ?_⟩
  · rcases drains d member with ⟨before, present, same, idle⟩ | ⟨same, waiting⟩
    · obtain ⟨below, ended⟩ := truthful.drained before present
      rw [same]
      refine ⟨below.trans later.submitted, fun woken => ?_⟩
      rcases idle woken with old | empty
      · exact later.ended _ (ended old)
      · exact ended_all balanced empty (below.trans later.submitted)
    · refine ⟨same ▸ later.submitted, fun idle => ?_⟩
      rw [waiting] at idle
      cases idle
  · rcases waits w member with ⟨before, present, same⟩ | same
    · exact same ▸ (truthful.waits before present).trans later.submitted
    · exact same ▸ later.submitted
  · rcases told bound member with old | ended
    · exact later.ended _ (truthful.told bound old)
    · exact ended

theorem Truthful.wake (truthful : s.Truthful) (later : Later s t) (balanced : t.ledger.Balanced)
    (drains : ∀ d ∈ t.drains, ∃ before ∈ s.drains, d.submittedBefore = before.submittedBefore ∧
      (d.idle = true → before.idle = true ∨ t.held = 0))
    (waits : t.stopWaits = s.stopWaits) (flushed : t.flushed = s.flushed) : t.Truthful :=
  truthful.grow later balanced (fun d member => .inl (drains d member))
    (fun w member => .inl ⟨w, waits ▸ member, rfl⟩) fun _ member => .inl (flushed ▸ member)

theorem Truthful.keep (truthful : s.Truthful) (later : Later s t) (balanced : t.ledger.Balanced)
    (drains : t.drains = s.drains) (waits : t.stopWaits = s.stopWaits) (flushed : t.flushed = s.flushed) :
    t.Truthful :=
  truthful.wake later balanced (fun d member => ⟨d, drains ▸ member, rfl, .inl⟩) waits flushed

theorem drains_schedule (o : Options) (s : State R) : (schedule o s).drains = s.drains := by
  rcases schedule_cases o s with ⟨same, _⟩ | ⟨_, _, _, started⟩ | ⟨_, _, _, armed⟩
  · rw [same]
  · rw [started]
    rfl
  · rw [armed]

theorem wakeIdle_drains {d : Drain} (member : d ∈ (wakeIdle s).drains) :
    ∃ before ∈ s.drains, d.submittedBefore = before.submittedBefore := by
  obtain ⟨⟨before, i⟩, present, rfl⟩ := List.mem_map.mp member
  refine ⟨before, List.fst_mem_of_mem_zipIdx present, ?_⟩
  simp only
  split_ifs <;> rfl

theorem modify_drains {drains : List Drain} {drain : Nat} {d : Drain}
    (member : d ∈ drains.modify drain fun d => { d with idle := true }) :
    ∃ before ∈ drains, d.submittedBefore = before.submittedBefore := by
  induction drains generalizing drain with
  | nil => simp at member
  | cons first rest ih =>
    cases drain with
    | zero =>
      rcases List.mem_cons.mp member with rfl | old
      · exact ⟨first, List.mem_cons_self, rfl⟩
      · exact ⟨d, List.mem_cons_of_mem _ old, rfl⟩
    | succ n =>
      rcases List.mem_cons.mp member with rfl | old
      · exact ⟨d, List.mem_cons_self, rfl⟩
      · obtain ⟨before, present, same⟩ := ih old
        exact ⟨before, List.mem_cons_of_mem _ present, same⟩

/-- The delivery loop at rest, an empty queue and no abandonment: nothing is outstanding. -/
theorem held_at_rest (control : s.Control) (free : s.delivering = false) (empty : s.queue = [])
    (holds : s.todo.flatMap Op.holds = []) : s.held = 0 := by
  simp [held, queueRefs, empty, (control.idle free).2.1, liveRefs, itemRefs, holds]

theorem Truthful.resumeRun (truthful : s.Truthful) (control : s.Control) (paused : s.run = .delivered)
    (top : s.todo = []) (later : Later s (resumeRun o s)) (balanced : (resumeRun o s).ledger.Balanced) :
    (resumeRun o s).Truthful := by
  have waits : (State.resumeRun o s).stopWaits = s.stopWaits := congrArg Outer.stopWaits (outer_resumeRun o s)
  have flushed : (State.resumeRun o s).flushed = s.flushed := congrArg Outer.flushed (outer_resumeRun o s)
  have located := control.located
  rw [paused] at located
  rcases resumeRun_cases o s with ⟨_, _, next⟩ | ⟨empty, woken⟩ | ⟨_, rescheduled⟩
  · exact truthful.keep later balanced (by rw [next]; rfl) waits flushed
  · refine truthful.wake later balanced (fun d member => ?_) waits flushed
    rw [woken] at member ⊢
    obtain ⟨before, present, same⟩ := wakeIdle_drains member
    refine ⟨before, present, same, fun _ => .inr ?_⟩
    change s.held = 0
    simp [held, queueRefs, empty, located.2.1, liveRefs, itemRefs, top]
  · exact truthful.keep later balanced (by rw [rescheduled]; exact drains_schedule o _) waits flushed

theorem Truthful.startRun (truthful : s.Truthful) (control : s.Control) (top : s.todo = [])
    (later : Later s (startRun o { s with lingerTimer := .unset }))
    (balanced : (startRun o { s with lingerTimer := .unset }).ledger.Balanced) :
    (startRun o { s with lingerTimer := .unset }).Truthful := by
  have outer := outer_startRun o { s with lingerTimer := .unset }
  have waits : (State.startRun o { s with lingerTimer := .unset }).stopWaits = s.stopWaits :=
    congrArg Outer.stopWaits outer
  have flushed : (State.startRun o { s with lingerTimer := .unset }).flushed = s.flushed :=
    congrArg Outer.flushed outer
  rcases startRun_cases o { s with lingerTimer := .unset } with
    ⟨same, _⟩ | ⟨free, empty, woken⟩ | ⟨_, _, started⟩
  · exact truthful.keep later balanced (by rw [same]) waits flushed
  · refine truthful.wake later balanced (fun d member => ?_) waits flushed
    rw [woken] at member ⊢
    obtain ⟨before, present, same⟩ := wakeIdle_drains member
    have none : s.held = 0 := held_at_rest control free empty (by simp [top])
    exact ⟨before, present, same, fun _ => .inr none⟩
  · exact truthful.keep later balanced (by rw [started]; rfl) waits flushed

/-- A drain that finds the loop at rest finds everything submitted accounted for. -/
theorem Truthful.idleCheck (truthful : s.Truthful) (sound : s.Sound) {drain : Nat} {rest : List (Op R)}
    (top : s.todo = .idleCheck drain :: rest) (later : Later s (idleCheck drain (s.pop rest)))
    (balanced : (idleCheck drain (s.pop rest)).ledger.Balanced) :
    (idleCheck drain (s.pop rest)).Truthful := by
  unfold State.idleCheck at later balanced ⊢
  split_ifs at later balanced ⊢ with quiet
  · obtain ⟨free, empty⟩ : (s.pop rest).delivering = false ∧ (s.pop rest).queue = [] := by
      simpa using quiet
    have opened : s.aborted = false := by simpa [Op.fits] using sound.halting.top_fits top
    have holds : rest.flatMap Op.holds = [] := by
      refine List.flatMap_eq_nil_iff.mpr fun op member => Op.holds_of_fits ?_
      exact opened ▸ sound.halting.closed op (top ▸ List.mem_cons_of_mem _ member)
    refine truthful.wake later balanced (fun d member => ?_) rfl rfl
    have none : (s.pop rest).held = 0 := held_at_rest (sound.control.pop top rfl) free empty holds
    obtain ⟨before, present, same⟩ := modify_drains member
    exact ⟨before, present, same, fun _ => .inr none⟩
  · exact truthful.keep later balanced rfl rfl rfl

/-- A drain begins with the number of records submitted before it. -/
theorem Truthful.drain (truthful : s.Truthful) {forFlush : Bool} (begun : u.drains = s.drains)
    (waits : u.stopWaits = s.stopWaits) (flushed : u.flushed = s.flushed) (submitted : u.submitted = s.submitted)
    (later : Later s (drain o forFlush u)) (balanced : (drain o forFlush u).ledger.Balanced) :
    (drain o forFlush u).Truthful := by
  have outer := outer_drain o forFlush u
  have drains : (State.drain o forFlush u).drains = s.drains ++ [⟨forFlush, s.submitted, false, false⟩] := by
    rw [← begun, ← submitted]
    exact drains_schedule o (awaitIdle forFlush u)
  have waits : (State.drain o forFlush u).stopWaits = s.stopWaits := (congrArg Outer.stopWaits outer).trans waits
  have flushed : (State.drain o forFlush u).flushed = s.flushed := (congrArg Outer.flushed outer).trans flushed
  refine truthful.grow later balanced (fun d member => ?_) (fun w member => .inl ⟨w, waits ▸ member, rfl⟩)
    fun _ member => .inl (flushed ▸ member)
  rw [drains] at member
  rcases List.mem_append.mp member with old | new
  · exact .inl ⟨d, old, rfl, .inl⟩
  · rw [List.mem_singleton.mp new]
    exact .inr ⟨rfl, rfl⟩

theorem Truthful.flush (truthful : s.Truthful) (later : Later s (flush o s))
    (balanced : (flush o s).ledger.Balanced) : (flush o s).Truthful := by
  rcases flush_cases o s with ⟨_, same⟩ | ⟨_, _, same⟩ <;> rw [same] at later balanced ⊢
  · exact truthful.drain rfl rfl rfl rfl later balanced
  · refine truthful.grow later balanced (fun d member => .inl ⟨d, member, rfl, .inl⟩) (fun w member => ?_)
      fun _ member => .inl member
    rcases List.mem_append.mp member with old | new
    · exact .inl ⟨w, old, rfl⟩
    · rw [List.mem_singleton.mp new]
      exact .inr rfl

theorem Truthful.beginShutdown (truthful : s.Truthful) (later : Later s (beginShutdown o s))
    (balanced : (beginShutdown o s).ledger.Balanced) : (beginShutdown o s).Truthful := by
  rcases beginShutdown_cases o s with ⟨_, same⟩ | ⟨_, _, _, same⟩ | ⟨_, _, same⟩ <;>
    rw [same] at later balanced ⊢
  · exact truthful
  · exact truthful.keep later balanced rfl rfl rfl
  · exact truthful.drain rfl rfl rfl rfl later balanced

theorem Truthful.drainSettles (truthful : s.Truthful) {drain : Nat} {idle : Bool} {d : Drain}
    (found : s.drains[drain]? = some d) (truth : idle = true → d.idle = true)
    (drains : t.drains = s.drains.set drain { d with settled := true }) (waits : t.stopWaits = s.stopWaits)
    (flushed : t.flushed = if d.forFlush then s.flushed ++ [(d.submittedBefore, idle)] else s.flushed)
    (later : Later s t) (balanced : t.ledger.Balanced) : t.Truthful := by
  have present : d ∈ s.drains := List.mem_of_getElem? found
  refine truthful.grow later balanced (fun d' member => .inl ?_) (fun w member => .inl ⟨w, waits ▸ member, rfl⟩)
    fun bound member => ?_
  · rw [drains] at member
    rcases List.mem_or_eq_of_mem_set member with old | new
    · exact ⟨d', old, rfl, .inl⟩
    · exact ⟨d, present, by rw [new], fun woken => .inl (by rwa [new] at woken)⟩
  · rw [flushed] at member
    split_ifs at member
    · rcases List.mem_append.mp member with old | new
      · exact .inl old
      · obtain ⟨rfl, told⟩ := Prod.mk.inj (List.mem_singleton.mp new)
        exact .inr (later.ended _ ((truthful.drained d present).2 (truth told.symm)))
    · exact .inl member

/-- A flush that waits for a stop hears of it when nothing is outstanding any more. -/
theorem Truthful.stopWaitSettles (truthful : s.Truthful) (sound : s.Sound) {wait : Nat} {stopped : Bool}
    {w : StopWait} (found : s.stopWaits[wait]? = some w) (truth : stopped = true → s.stops[w.stop]? = some .stopped)
    (drains : t.drains = s.drains) (waits : t.stopWaits = s.stopWaits.set wait { w with settled := true })
    (flushed : t.flushed = s.flushed ++ [(w.submittedBefore, stopped)]) (later : Later s t)
    (balanced : t.ledger.Balanced) : t.Truthful := by
  have present : w ∈ s.stopWaits := List.mem_of_getElem? found
  refine truthful.grow later balanced (fun d member => .inl ⟨d, drains ▸ member, rfl, .inl⟩)
    (fun w' member => .inl ?_) fun bound member => ?_
  · rw [waits] at member
    rcases List.mem_or_eq_of_mem_set member with old | new
    · exact ⟨w', old, rfl⟩
    · exact ⟨w, present, by rw [new]⟩
  · rw [flushed] at member
    rcases List.mem_append.mp member with old | new
    · exact .inl old
    · obtain ⟨rfl, told⟩ := Prod.mk.inj (List.mem_singleton.mp new)
      have empty := sound.ended (List.mem_of_getElem? (truth told.symm))
      exact .inr (later.ended _ (ended_all sound.balanced empty (truthful.waits w present)))

theorem Truthful.move [AudrRecord R] {act : Act R} (truthful : s.Truthful) (sound : s.Sound)
    (move : Move o s act t) (later : Later s t) (balanced : t.ledger.Balanced) : t.Truthful := by
  rcases move.turn with same | turn
  · exact truthful.keep later balanced (congrArg (fun frame => frame.drains) same)
      (congrArg (fun frame => frame.stopWaits) same) (congrArg (fun frame => frame.flushed) same)
  cases turn with
  | @submit record rest top =>
    have outer := outer_submit o record (s.pop rest)
    refine truthful.keep later balanced ?_ (congrArg Outer.stopWaits outer) (congrArg Outer.flushed outer)
    rcases submit_cases o record (s.pop rest) with ⟨_, same⟩ | ⟨_, same⟩ <;> rw [same]
    · rfl
    · exact drains_schedule o _
  | idleCheck top => exact truthful.idleCheck sound top later balanced
  | flush top => exact truthful.flush later balanced
  | shutdown top => exact truthful.beginShutdown later balanced
  | lingerFires top armed => exact truthful.startRun sound.control top later balanced
  | runResumes top paused => exact truthful.resumeRun sound.control paused top later balanced
  | drainSettles top found waiting truth => exact truthful.drainSettles found truth rfl rfl rfl later balanced
  | stopWaitSettles top found truth => exact truthful.stopWaitSettles sound found truth rfl rfl rfl later balanced
  | _ => exact truthful.keep later balanced rfl rfl rfl

end State

variable [AudrRecord R] {o : Options} {labels : List (Act R)} {s : State R}

theorem moving_run (run : Reaches o labels s) : s.Sound ∧ s.Moving ∧ s.Truthful := by
  refine run.invariant (fun s => s.Sound ∧ s.Moving ∧ s.Truthful) ⟨State.sound_initial, ?_, ?_⟩ ?_
  · exact ⟨by simp [initial], by simp [initial], by simp [initial], rfl⟩
  · exact ⟨by simp [initial], by simp [initial], by simp [initial]⟩
  · rintro before label after ⟨sound, moving, truthful⟩ _ taken
    have move := State.step_moves taken
    have next := sound.move move
    refine ⟨next, moving.move sound.control move, truthful.move sound move ?_ next.balanced⟩
    rcases move.books sound.control with ⟨_, _, _, books⟩ | books
    · exact books.later
    · exact books.later

/-- With control in the event loop nothing queued is stranded, and a flush that
resolved to true was right about every record submitted before it. -/
theorem no_stranding (run : Reaches o labels s) :
    (s.todo = [] → s.queue ≠ [] → s.delivering = true ∨ s.lingerTimer = .armed) ∧
    (s.todo = [] → (∃ d ∈ s.drains, d.settled = false) ∨ s.stopped = true → s.queue ≠ [] →
      s.delivering = true) ∧
    ∀ bound, (bound, true) ∈ s.flushed → ∀ ref < bound, ∃ terminal, (ref, terminal) ∈ s.settled := by
  obtain ⟨sound, moving, truthful⟩ := moving_run run
  have emptied : s.todo = [] → s.aborted = true → s.queue = [] := by
    intro top aborted
    have covered := sound.halting.covered aborted
    rw [State.Covered, top] at covered
    exact (covered.resolve_left (by simp)).1
  refine ⟨fun top full => ?_, fun top some full => ?_, fun bound told ref below => ?_⟩
  · rcases moving.going full with busy | armed | aborted
    · exact .inl busy
    · exact .inr armed
    · exact absurd (emptied top aborted) full
  · have draining : 0 < s.drainers ∨ s.stopped = true := by
      refine some.imp_left fun waiting => ?_
      obtain ⟨d, member, waiting⟩ := waiting
      rw [moving.drainers]
      exact List.countP_pos_iff.mpr ⟨d, member, by simp [waiting]⟩
    rcases moving.prompt draining full with busy | aborted
    · exact busy
    · exact absurd (emptied top aborted) full
  · obtain ⟨⟨same, terminal⟩, member, rfl⟩ := List.mem_map.mp (truthful.told bound told ref below)
    exact ⟨terminal, member⟩

/-- Two flushes overlap; the first gives up, the second is told the truth. -/
def flushedLabels : List (Act String) :=
  [.task, .record "a" .valid, .leave .returns, .next, .leave .returnsPromise, .next, .flush, .next,
    .record "b" .valid, .leave .returns, .next, .next, .flush, .next, .leave .returns,
    .drainSettles 0 false, .sinkSettles (.result (.accepted [] [])), .next, .next, .leave .returns, .next,
    .next, .runResumes, .leave .returnsPromise, .sinkSettles .rejection, .next, .leave .returns, .next, .next,
    .leave .returns, .runResumes, .drainSettles 1 true]

def flushed : State String :=
  (Transition.execute (step smallOptions) (initial String) flushedLabels).getD (initial String)

theorem no_stranding_flushed :
    flushed.flushed = [(1, false), (2, true)] ∧ ∀ ref < 2, ∃ terminal, (ref, terminal) ∈ flushed.settled := by
  have run : Reaches smallOptions flushedLabels flushed := Run.of_execute rfl
  have told : flushed.flushed = [(1, false), (2, true)] := rfl
  exact ⟨told, (no_stranding run).2.2 2 (by simp [told])⟩

end Audr.Pipeline
