import Audr.PyPipeline.Moves

/-! What the stack of the Python pipeline can look like. User code sits on top of at most
one section of the pipeline's own code: the end of a delivery, or an abandonment under
`stop`. Which section it is agrees with where the worker stands and with the records in
flight; this says where an exception that nobody catches comes to rest. -/

namespace Audr.PyPipeline

variable {R : Type}

/-- What user code and its own calls leave on the stack. -/
def Op.calls : Op R → Bool
  | .user _ => true
  | .returned _ _ => true
  | _ => false

/-- The calls made on the items of a batch, and what goes with them. -/
def Op.accounts : Op R → Bool
  | .fail _ _ _ _ _ => true
  | .markSent _ => true
  | .notifyDelivered _ => true
  | _ => false

/-- The rest of the `try` part of `_deliver`. -/
inductive Trying (batch : List Ref) : List (Op R) → Prop where
  | ends (raising : Bool) : Trying batch [.tryEnds batch raising]
  | account {op : Op R} {rest : List (Op R)} (accounts : op.accounts = true)
      (later : Trying batch rest) : Trying batch (op :: rest)

/-- The rest of `_abandon_outstanding`, up to where it was called. -/
inductive Abandoning (last : Op R) : List (Op R) → Prop where
  | queue : Abandoning last [.abandonQueue, last]
  | items (pending : List Ref) : Abandoning last [.abandonItems pending, last]
  | done : Abandoning last [last]

/-- What that part will reach includes all there is. -/
def Covered (queue : List (Queued R)) (items : List (InFlight R)) : List (Op R) → Prop
  | .abandonQueue :: _ => True
  | .abandonItems pending :: _ => queue = [] ∧ ∀ ref ∈ liveRefs items, ref ∈ pending
  | _ => queue = [] ∧ liveRefs items = []

/-- The worker will take nothing off the queue any more. -/
def WorkerAt.gone : WorkerAt R → Bool
  | .absent => true
  | .ended => true
  | _ => false

def WorkerAt.concludes : WorkerAt R → Bool
  | .concluding _ => true
  | _ => false

/-- The sections of the pipeline's own code, under all user code. -/
inductive Section (worker : WorkerAt R) (stop : StopAt) (queue : List (Queued R))
    (items : List (InFlight R)) : List (Op R) → Prop where
  | free (elsewhere : worker.concludes = false) : Section worker stop queue items []
  | trying {batch : List Ref} {todo : List (Op R)} (at_ : worker = .concluding batch)
      (refs : itemRefs items = batch) (part : Trying batch todo) : Section worker stop queue items todo
  | concluding {pending batch : List Ref} {raising : Bool} (at_ : worker = .concluding batch)
      (refs : itemRefs items = pending) : Section worker stop queue items [.conclude pending batch raising]
  | releasing {ref : Ref} {pending batch : List Ref} {raising : Bool}
      (at_ : worker = .concluding batch) (refs : itemRefs items = ref :: pending)
      (counted : ref ∉ liveRefs items) :
      Section worker stop queue items [.releaseInFlight ref, .conclude pending batch raising]
  | draining {raising : Bool} {todo : List (Op R)} (elsewhere : worker.concludes = false)
      (called : stop ≠ .notCalled) (part : Abandoning (.shutdown raising) todo) :
      Section worker stop queue items todo
  | closing {raising : Bool} {todo : List (Op R)} (gone : worker.gone = true)
      (called : stop ≠ .notCalled) (covered : Covered queue items todo)
      (part : Abandoning (.closeSink raising) todo) : Section worker stop queue items todo

theorem Section.no_calls {worker : WorkerAt R} {stop : StopAt} {queue : List (Queued R)}
    {items : List (InFlight R)} {op : Op R} {rest : List (Op R)}
    (part : Section worker stop queue items (op :: rest)) : op.calls = false := by
  cases part with
  | trying at_ refs part =>
    cases part with
    | ends => rfl
    | account accounts => cases op <;> first | rfl | cases accounts
  | concluding => rfl
  | releasing => rfl
  | draining elsewhere called part => cases part <;> rfl
  | closing gone called covered part => cases part <;> rfl

/-- Between two sections the worker is not in the middle of `_deliver`. -/
theorem Section.elsewhere {worker : WorkerAt R} {stop : StopAt} {queue : List (Queued R)}
    {items : List (InFlight R)} (part : Section worker stop queue items []) : worker.concludes = false := by
  cases part with
  | free elsewhere => exact elsewhere
  | trying at_ refs part => cases part
  | draining elsewhere called part => cases part
  | closing gone called covered part => cases part

variable {worker : WorkerAt R} {stop : StopAt} {queue : List (Queued R)} {items : List (InFlight R)}
  {rest : List (Op R)}

/-! What the top of a section says about the rest of it. -/

theorem Section.after_account {op : Op R} (part : Section worker stop queue items (op :: rest))
    (accounts : op.accounts = true) : Section worker stop queue items rest := by
  cases part with
  | trying at_ refs part =>
    cases part with
    | ends => cases accounts
    | account _ later => exact .trying at_ refs later
  | concluding => cases accounts
  | releasing => cases accounts
  | draining elsewhere called part => cases part <;> cases accounts
  | closing gone called covered part => cases part <;> cases accounts

theorem Section.at_tryEnds {batch : List Ref} {raising : Bool}
    (part : Section worker stop queue items (.tryEnds batch raising :: rest)) :
    rest = [] ∧ worker = .concluding batch ∧ itemRefs items = batch := by
  cases part with
  | trying at_ refs part =>
    cases part with
    | ends => exact ⟨rfl, at_, refs⟩
    | account accounts => cases accounts
  | draining elsewhere called part => cases part
  | closing gone called covered part => cases part

theorem Section.at_conclude {pending batch : List Ref} {raising : Bool}
    (part : Section worker stop queue items (.conclude pending batch raising :: rest)) :
    rest = [] ∧ worker = .concluding batch ∧ itemRefs items = pending := by
  cases part with
  | trying at_ refs part => cases part with | account accounts => cases accounts
  | concluding at_ refs => exact ⟨rfl, at_, refs⟩
  | draining elsewhere called part => cases part
  | closing gone called covered part => cases part

theorem Section.at_release {ref : Ref} (part : Section worker stop queue items (.releaseInFlight ref :: rest)) :
    ∃ pending batch raising, rest = [.conclude pending batch raising] ∧ worker = .concluding batch ∧
      itemRefs items = ref :: pending ∧ ref ∉ liveRefs items := by
  cases part with
  | trying at_ refs part => cases part with | account accounts => cases accounts
  | releasing at_ refs counted => exact ⟨_, _, _, rfl, at_, refs, counted⟩
  | draining elsewhere called part => cases part
  | closing gone called covered part => cases part

/-- An abandonment ends in `_shutdown` or in the rest of it. -/
theorem Section.at_abandon {op : Op R} (part : Section worker stop queue items (op :: rest))
    (abandons : op = .abandonQueue ∨ ∃ pending, op = .abandonItems pending) :
    stop ≠ .notCalled ∧
      ((∃ raising, rest = [.shutdown raising] ∧ worker.concludes = false) ∨
        ∃ raising, rest = [.closeSink raising] ∧ worker.gone = true ∧ Covered queue items (op :: rest)) := by
  cases part with
  | trying at_ refs part =>
    cases part with
    | ends => simp at abandons
    | account accounts => rcases abandons with rfl | ⟨_, rfl⟩ <;> cases accounts
  | concluding => simp at abandons
  | releasing => simp at abandons
  | draining elsewhere called part =>
    cases part with
    | done => simp at abandons
    | _ => exact ⟨called, .inl ⟨_, rfl, elsewhere⟩⟩
  | closing gone called covered part =>
    cases part with
    | done => simp at abandons
    | _ => exact ⟨called, .inr ⟨_, rfl, gone, covered⟩⟩

theorem Section.at_shutdown {raising : Bool}
    (part : Section worker stop queue items (.shutdown raising :: rest)) :
    rest = [] ∧ worker.concludes = false ∧ stop ≠ .notCalled := by
  cases part with
  | trying at_ refs part => cases part with | account accounts => cases accounts
  | draining elsewhere called part =>
    cases part with
    | done => exact ⟨rfl, elsewhere, called⟩
  | closing gone called covered part => cases part

theorem Section.at_closeSink {raising : Bool}
    (part : Section worker stop queue items (.closeSink raising :: rest)) :
    rest = [] ∧ worker.gone = true ∧ stop ≠ .notCalled ∧ queue = [] ∧ liveRefs items = [] := by
  cases part with
  | trying at_ refs part => cases part with | account accounts => cases accounts
  | draining elsewhere called part => cases part
  | closing gone called covered part =>
    cases part with
    | done => exact ⟨rfl, gone, called, covered⟩

/-- The next turn of an abandonment, under whatever called it. -/
theorem Section.abandons {op next : Op R} {more : List (InFlight R)} {left : List (Queued R)} {at_ : StopAt}
    (part : Section worker stop queue items (op :: rest))
    (abandons : op = .abandonQueue ∨ ∃ pending, op = .abandonItems pending)
    (called : at_ = .notCalled ↔ stop = .notCalled)
    (continues : ∀ last : Op R, Abandoning last [next, last])
    (covered : Covered queue items (op :: rest) → Covered left more (next :: rest)) :
    Section worker at_ left more (next :: rest) := by
  obtain ⟨begun, ⟨raising, rfl, elsewhere⟩ | ⟨raising, rfl, gone, all⟩⟩ := part.at_abandon abandons
  · exact .draining elsewhere (fun same => begun (called.mp same)) (continues _)
  · exact .closing gone (fun same => begun (called.mp same)) (covered all) (continues _)

/-! What a section depends on. -/

theorem Covered.fewer {more : List (InFlight R)} {todo : List (Op R)} (covered : Covered queue items todo)
    (fewer : ∀ ref ∈ liveRefs more, ref ∈ liveRefs items) : Covered queue more todo := by
  unfold Covered at covered ⊢
  split
  · trivial
  · exact ⟨covered.1, fun ref live => covered.2 ref (fewer ref live)⟩
  next notQueue notItems =>
    split at covered
    next rest => exact absurd rfl (notQueue rest)
    next pending rest => exact absurd rfl (notItems pending rest)
    next =>
      refine ⟨covered.1, List.eq_nil_iff_forall_not_mem.mpr fun ref live => ?_⟩
      have before := fewer ref live
      rw [covered.2] at before
      cases before

/-- Records in flight that are counted change no section. -/
theorem Section.counted {todo : List (Op R)} {more : List (InFlight R)}
    (part : Section worker stop queue items todo) (refs : itemRefs more = itemRefs items)
    (fewer : ∀ ref ∈ liveRefs more, ref ∈ liveRefs items) : Section worker stop queue more todo := by
  cases part with
  | free elsewhere => exact .free elsewhere
  | trying at_ same part => exact .trying at_ (refs.trans same) part
  | concluding at_ same => exact .concluding at_ (refs.trans same)
  | releasing at_ same counted => exact .releasing at_ (refs.trans same) fun live => counted (fewer _ live)
  | draining elsewhere called part => exact .draining elsewhere called part
  | closing gone called covered part => exact .closing gone called (covered.fewer fewer) part

theorem Section.recalled {todo : List (Op R)} {at_ : StopAt} (part : Section worker stop queue items todo)
    (called : at_ ≠ .notCalled) : Section worker at_ queue items todo := by
  cases part with
  | free elsewhere => exact .free elsewhere
  | trying here same part => exact .trying here same part
  | concluding here same => exact .concluding here same
  | releasing here same counted => exact .releasing here same counted
  | draining elsewhere _ part => exact .draining elsewhere called part
  | closing gone _ covered part => exact .closing gone called covered part

/-- While no stop has been called a section does not depend on the queue. -/
theorem Section.queued {todo : List (Op R)} {more : List (Queued R)}
    (part : Section worker stop queue items todo) (uncalled : stop = .notCalled) :
    Section worker stop more items todo := by
  cases part with
  | free elsewhere => exact .free elsewhere
  | trying here same part => exact .trying here same part
  | concluding here same => exact .concluding here same
  | releasing here same counted => exact .releasing here same counted
  | draining elsewhere called part => exact absurd uncalled called
  | closing gone called covered part => exact absurd uncalled called

namespace State

/-- The stack is user code on top of one section. -/
def Stacked (s : State R) (todo : List (Op R)) : Prop :=
  ∃ above below, todo = above ++ below ∧ (∀ op ∈ above, op.calls = true) ∧
    Section s.worker s.stop s.queue s.inFlight below

variable {s t : State R} {o : Options}

/-! Reading the section off the top of the stack. -/

/-- With code of the pipeline on top, the whole stack is one section. -/
theorem Stacked.section_ {op : Op R} {rest : List (Op R)} (stacked : s.Stacked (op :: rest))
    (own : op.calls = false) : Section s.worker s.stop s.queue s.inFlight (op :: rest) := by
  obtain ⟨above, below, shape, calls, part⟩ := stacked
  cases above with
  | nil =>
    rw [List.nil_append] at shape
    exact shape ▸ part
  | cons first others =>
    obtain ⟨rfl, _⟩ := List.cons_eq_cons.mp shape
    rw [calls op List.mem_cons_self] at own
    cases own

/-- With user code on top, what it will return to is such a stack again. -/
theorem Stacked.under {op : Op R} {rest : List (Op R)} (stacked : s.Stacked (op :: rest))
    (user : op.calls = true) : s.Stacked rest := by
  obtain ⟨above, below, shape, calls, part⟩ := stacked
  cases above with
  | nil =>
    rw [List.nil_append] at shape
    subst shape
    rw [part.no_calls] at user
    cases user
  | cons first others =>
    obtain ⟨rfl, rfl⟩ := List.cons_eq_cons.mp shape
    exact ⟨others, below, rfl, fun op member => calls op (List.mem_cons_of_mem _ member), part⟩

theorem Stacked.empty (stacked : s.Stacked []) : s.worker.concludes = false := by
  obtain ⟨above, below, shape, _, part⟩ := stacked
  obtain ⟨rfl, rfl⟩ := List.append_eq_nil_iff.mp shape.symm
  exact part.elsewhere

theorem Stacked.add {todo : List (Op R)} (above : List (Op R)) (stacked : s.Stacked todo)
    (calls : ∀ op ∈ above, op.calls = true) : s.Stacked (above ++ todo) := by
  obtain ⟨others, below, rfl, more, part⟩ := stacked
  refine ⟨above ++ others, below, by rw [List.append_assoc], fun op member => ?_, part⟩
  rcases List.mem_append.mp member with first | second
  · exact calls op first
  · exact more op second

theorem Stacked.of_section {todo : List (Op R)} (part : Section s.worker s.stop s.queue s.inFlight todo) :
    s.Stacked todo :=
  ⟨[], todo, rfl, by simp, part⟩

/-- Where an escaping exception comes to rest. -/
inductive Unwound (s : State R) (rest : List (Op R)) : State R → Prop where
  | resumes {todo : List (Op R)} (stacked : s.Stacked todo) : Unwound s rest { s with todo := todo }
  | finishes {pending batch : List Ref} {raising : Bool}
      (caught : rest.dropWhile (fun op => !op.catches) = [.conclude pending batch raising])
      (at_ : s.worker = .concluding batch) : Unwound s rest (finish batch true { s with todo := [] })
  | stops {raising : Bool} (caught : rest.dropWhile (fun op => !op.catches) = [.closeSink raising])
      (gone : s.worker.gone = true) (called : s.stop ≠ .notCalled) :
      Unwound s rest { s with stop := .ended true, todo := [] }

theorem Trying.caught {batch : List Ref} {todo : List (Op R)} (part : Trying batch todo) :
    ∃ raising, todo.dropWhile (fun op => !op.catches) = [.tryEnds batch raising] := by
  induction part with
  | ends raising => exact ⟨raising, rfl⟩
  | @account op rest accounts later ih =>
    have passes : op.catches = false := by cases op <;> first | rfl | cases accounts
    rw [List.dropWhile_cons_of_pos (by rw [passes]; rfl)]
    exact ih

theorem unwound_below {below : List (Op R)} (part : Section s.worker s.stop s.queue s.inFlight below) :
    Unwound s below (unwind below s) := by
  cases part with
  | free elsewhere => exact .resumes (.of_section (.free elsewhere))
  | trying at_ refs part =>
    obtain ⟨raising, caught⟩ := Trying.caught part
    simp only [unwind, caught]
    exact .resumes (.of_section (.concluding at_ refs))
  | concluding at_ refs => exact .finishes rfl at_
  | releasing at_ refs counted => exact .finishes rfl at_
  | draining elsewhere called part =>
    cases part <;> exact .resumes (.of_section (.draining elsewhere called .done))
  | closing gone called covered part => cases part <;> exact .stops rfl gone called

theorem Stacked.unwound {rest : List (Op R)} (stacked : s.Stacked rest) :
    Unwound s rest (unwind rest s) := by
  obtain ⟨above, below, rfl, calls, part⟩ := stacked
  induction above with
  | nil => exact unwound_below part
  | cons op others ih =>
    have later := ih fun op member => calls op (List.mem_cons_of_mem _ member)
    cases op with
    | user site =>
      refine .resumes ⟨.user site :: others, below, rfl, calls, part⟩
    | returned ref outcome =>
      generalize next : unwind (others ++ below) s = t at later
      have same : unwind (.returned ref outcome :: others ++ below) s = t := next
      rw [same]
      cases later with
      | resumes stacked => exact .resumes stacked
      | finishes caught at_ => exact .finishes caught at_
      | stops caught gone called => exact .stops caught gone called
    | _ => cases calls _ List.mem_cons_self

end State

end Audr.PyPipeline
