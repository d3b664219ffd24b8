import Audr.Lago.Evidence
import Audr.Verdicts

/-! What the result of a delivery says of each record, held against what Lago answered. -/

namespace Audr.Lago

variable {world : World} {early named : List (String × Option String)} {held : List String} {tally : Tally}
  {posts more : List Post} {pending : List LagoEvent}

/-- Lago confirmed the event: it answered `200` to a request that carried it, or one of the
`422`s that are acted on named it only as an existing transaction. -/
def Confirmed (world : World) (posts : List Post) (id : String) : Prop :=
  ∃ post ∈ posts, Confirms world post id ∨ (post.pass < maxSalvagePasses ∧ Held world post id)

/-- One of the `422`s that are acted on named the event as invalid. -/
def Named (world : World) (posts : List Post) (id : String) : Prop :=
  ∃ post ∈ posts, post.pass < maxSalvagePasses ∧ Invalid world post id

/-- The last request that carried the event was refused for good. -/
def LastRefused (world : World) (posts : List Post) (id : String) : Prop :=
  ∃ earlier post later, posts = earlier ++ post :: later ∧ id ∈ idsOf post.body ∧
    (∀ other ∈ later, id ∉ idsOf other.body) ∧ Refused world post

/-- Calls whose answers say nothing that is acted on. -/
def Silent (world : World) (posts : List Post) : Prop :=
  ∀ id, ¬ Confirmed world posts id ∧ ¬ Named world posts id

theorem confirmed_append (id : String) :
    Confirmed world (posts ++ more) id ↔ Confirmed world posts id ∨ Confirmed world more id := by
  simp only [Confirmed, List.mem_append, or_and_right, exists_or]

theorem named_append (id : String) : Named world (posts ++ more) id ↔ Named world posts id ∨ Named world more id := by
  simp only [Named, List.mem_append, or_and_right, exists_or]

theorem silent_of_each (each : ∀ post ∈ posts, (∀ id, ¬ Confirms world post id) ∧
    (post.pass < maxSalvagePasses → verdictOf world post = none)) : Silent world posts := by
  intro id
  constructor
  · rintro ⟨post, member, confirms | ⟨acted, verdict, read, -⟩⟩
    · exact (each post member).1 id confirms
    · rw [(each post member).2 acted] at read
      cases read
  · rintro ⟨post, member, acted, verdict, read, -⟩
    rw [(each post member).2 acted] at read
    cases read

theorem silent_of_retried (retried : ∀ post ∈ posts, Retried world post) : Silent world posts :=
  silent_of_each fun post member => ⟨(retried post member).silent.1, fun _ => (retried post member).silent.2.1⟩

theorem Silent.append (first : Silent world posts) (second : Silent world more) : Silent world (posts ++ more) := by
  intro id
  rw [confirmed_append, named_append]
  exact ⟨fun both => both.elim (first id).1 (second id).1, fun both => both.elim (first id).2 (second id).2⟩

/-- A tally beside what Lago answered: `early` are the rejections before anything was sent,
`held` the ids of the confirmed events, and `named` the rejections that answers led to. -/
structure Books (world : World) (early : List (String × Option String)) (tally : Tally) (posts : List Post)
    (held : List String) (named : List (String × Option String)) : Prop where
  rejected : tally.rejected = early ++ named
  settled : tally.settled.Perm (held ++ named.map Prod.fst ++ tally.refused.map Prod.fst)
  confirmed : tally.confirmed = held.length
  held_iff : ∀ id, id ∈ held ↔ Confirmed world posts id
  named_iff : ∀ id, id ∈ named.map Prod.fst ↔ Named world posts id
  distinct : tally.settled.Nodup
  inside : ∀ id ∈ tally.settled, id ∈ idsOf tally.events

theorem Books.silent (books : Books world early tally posts held named) (silent : Silent world more) :
    Books world early tally (posts ++ more) held named := by
  refine { books with held_iff := fun id => ?_, named_iff := fun id => ?_ }
  · rw [books.held_iff, confirmed_append, or_iff_left (silent id).1]
  · rw [books.named_iff, named_append, or_iff_left (silent id).2]

theorem Books.confirm (books : Books world early tally posts held named)
    (fresh : (tally.settled ++ idsOf pending).Nodup) (inside : ∀ id ∈ idsOf pending, id ∈ idsOf tally.events)
    (confirmed : ∀ id, Confirmed world more id ↔ id ∈ idsOf pending) (unnamed : ∀ id, ¬ Named world more id) :
    Books world early (tally.confirm pending) (posts ++ more) (held ++ idsOf pending) named := by
  constructor
  · exact books.rejected
  · have before := books.settled
    rw [List.perm_iff_count] at before ⊢
    intro id
    have same := before id
    simp only [Tally.confirm, List.count_append] at same ⊢
    omega
  · simp [Tally.confirm, books.confirmed, idsOf]
  · intro id
    rw [List.mem_append, books.held_iff, confirmed_append, confirmed]
  · intro id
    rw [books.named_iff, named_append, or_iff_left (unnamed id)]
  · exact fresh
  · intro id member
    exact (List.mem_append.mp member).elim (books.inside id) (inside id)

theorem Books.refuse (books : Books world early tally posts held named) (detail : String)
    (fresh : (tally.settled ++ idsOf pending).Nodup) (inside : ∀ id ∈ idsOf pending, id ∈ idsOf tally.events)
    (silent : Silent world more) :
    Books world early (tally.refuse pending detail) (posts ++ more) held named := by
  have quiet := books.silent silent
  constructor
  · exact books.rejected
  · have before := books.settled
    rw [List.perm_iff_count] at before ⊢
    intro id
    have same := before id
    have ids : ((idsOf pending).map fun id => (id, some detail)).map Prod.fst = idsOf pending := by
      simp [Function.comp_def]
    simp only [Tally.refuse, List.map_append, List.count_append, ids] at same ⊢
    omega
  · exact books.confirmed
  · exact quiet.held_iff
  · exact quiet.named_iff
  · exact fresh
  · intro id member
    exact (List.mem_append.mp member).elim (books.inside id) (inside id)

theorem Books.narrow {verdict : ValidationVerdict} {after : Tally} {survivors : List LagoEvent}
    (books : Books world early tally posts held named) (settled : Settled verdict 0 pending tally after survivors)
    (fresh : (tally.settled ++ idsOf pending).Nodup) (inside : ∀ id ∈ idsOf pending, id ∈ idsOf tally.events)
    (confirmed : ∀ id, Confirmed world more id ↔ id ∈ heldIds verdict 0 pending)
    (invalid : ∀ id, Named world more id ↔ id ∈ invalidIds verdict 0 pending) :
    (after.settled ++ idsOf survivors).Nodup ∧
      ∃ named', Books world early after (posts ++ more) (held ++ heldIds verdict 0 pending) named' := by
  obtain ⟨extra, rejected, ids⟩ := settled.rejected
  have whole : (tally.settled ++ idsOf pending).Perm (after.settled ++ idsOf survivors) := by
    have divided := settled.divided
    have moved := settled.settled
    rw [List.perm_iff_count] at divided moved ⊢
    intro id
    have first := divided id
    have second := moved id
    simp only [List.count_append] at first second ⊢
    omega
  have distinct := whole.nodup_iff.mp fresh
  refine ⟨distinct, named ++ extra, ?_⟩
  constructor
  · rw [rejected, books.rejected, List.append_assoc]
  · have before := books.settled
    have moved := settled.settled
    rw [List.perm_iff_count] at before moved ⊢
    intro id
    have first := before id
    have second := moved id
    simp only [List.map_append, ids, settled.refused, List.count_append] at first second ⊢
    omega
  · rw [settled.confirmed, books.confirmed, List.length_append]
  · intro id
    rw [List.mem_append, books.held_iff, confirmed_append, confirmed]
  · intro id
    rw [List.map_append, List.mem_append, books.named_iff, named_append, ids, invalid]
  · exact distinct.of_append_left
  · intro id member
    rw [settled.events]
    have either := (settled.settled.mem_iff.mp member)
    rcases List.mem_append.mp either with old | new
    · exact books.inside id old
    · exact inside id (settled.divided.mem_iff.mpr (List.mem_append_left _ new))

section Requests

variable {chunk pass attempts time : Nat} {sent : Exchanged}

theorem accepted_evidence (spec : sent.Spec world chunk pass pending attempts time)
    (accepted : sent.exchange = .accepted) :
    (∀ id, Confirmed world sent.posts id ↔ id ∈ idsOf pending) ∧ ∀ id, ¬ Named world sent.posts id := by
  have concluded := spec.concluded
  rw [accepted] at concluded
  obtain ⟨earlier, last, body, split, retried, answered⟩ := concluded.accepted
  have carried : last.body = pending := (spec.posts last (by simp [split])).body
  have unread : verdictOf world last = none := by
    simp [verdictOf, answered]
  rw [split]
  constructor
  · intro id
    rw [confirmed_append, or_iff_right (silent_of_retried retried id).1]
    constructor
    · rintro ⟨post, member, confirms | ⟨-, verdict, read, -⟩⟩
      · rw [List.mem_singleton.mp member] at confirms
        exact carried ▸ confirms.2
      · rw [List.mem_singleton.mp member, unread] at read
        cases read
    · intro member
      exact ⟨last, List.mem_singleton_self _, .inl ⟨⟨body, answered⟩, carried.symm ▸ member⟩⟩
  · intro id
    rw [named_append, or_iff_right (silent_of_retried retried id).2]
    rintro ⟨post, member, -, verdict, read, -⟩
    rw [List.mem_singleton.mp member, unread] at read
    cases read

/-- A `422` that is acted on confirms and names what its verdict says. -/
theorem verdict_evidence {body : Option (Json Double)} {verdict : ValidationVerdict}
    (spec : sent.Spec world chunk pass pending attempts time) (invalid : sent.exchange = .invalid body)
    (acted : pass < maxSalvagePasses) (trusted : parseValidationErrors body pending.length = some verdict) :
    (∀ id, Confirmed world sent.posts id ↔ id ∈ heldIds verdict 0 pending) ∧
      ∀ id, Named world sent.posts id ↔ id ∈ invalidIds verdict 0 pending := by
  have concluded := spec.concluded
  rw [invalid] at concluded
  obtain ⟨earlier, last, split, retried, answered⟩ := concluded.invalid
  have of := spec.posts last (by simp [split])
  obtain ⟨unconfirmed, read⟩ := verdictOf_invalid answered
  rw [of.body, trusted] at read
  have acted' : last.pass < maxSalvagePasses := of.pass ▸ acted
  rw [split]
  constructor
  · intro id
    rw [confirmed_append, or_iff_right (silent_of_retried retried id).1]
    constructor
    · rintro ⟨post, member, confirms | ⟨-, other, said, held⟩⟩
      · exact absurd (List.mem_singleton.mp member ▸ confirms) (unconfirmed id)
      · rw [List.mem_singleton.mp member] at said held
        rw [read] at said
        cases said
        exact of.body ▸ held
    · intro member
      exact ⟨last, List.mem_singleton_self _, .inr ⟨acted', verdict, read, of.body.symm ▸ member⟩⟩
  · intro id
    rw [named_append, or_iff_right (silent_of_retried retried id).2]
    constructor
    · rintro ⟨post, member, -, other, said, named⟩
      rw [List.mem_singleton.mp member] at said named
      rw [read] at said
      cases said
      exact of.body ▸ named
    · intro member
      exact ⟨last, List.mem_singleton_self _, acted', verdict, read, of.body.symm ▸ member⟩

theorem unacted_evidence {body : Option (Json Double)} (spec : sent.Spec world chunk pass pending attempts time)
    (invalid : sent.exchange = .invalid body)
    (unacted : pass = maxSalvagePasses ∨ parseValidationErrors body pending.length = none) :
    Silent world sent.posts := by
  have concluded := spec.concluded
  rw [invalid] at concluded
  obtain ⟨earlier, last, split, retried, answered⟩ := concluded.invalid
  have of := spec.posts last (by simp [split])
  obtain ⟨unconfirmed, read⟩ := verdictOf_invalid answered
  rw [split]
  refine (silent_of_retried retried).append (silent_of_each fun post member => ?_)
  rw [List.mem_singleton.mp member]
  refine ⟨unconfirmed, fun acted => ?_⟩
  rcases unacted with final | untrusted
  · rw [of.pass, final] at acted
    exact absurd acted (lt_irrefl _)
  · rw [read, of.body, untrusted]

theorem other_evidence (spec : sent.Spec world chunk pass pending attempts time)
    (other : sent.exchange ≠ .accepted) (unread : ∀ body, sent.exchange ≠ .invalid body) :
    Silent world sent.posts := by
  rcases spec.concluded.inv with ⟨retried, -⟩ | ⟨earlier, last, split, retried, ending⟩
  · exact silent_of_retried retried
  · rw [split]
    refine (silent_of_retried retried).append (silent_of_each fun post member => ?_)
    rw [List.mem_singleton.mp member]
    have silent := ending.silent_of other unread
    exact ⟨silent.1, fun _ => silent.2⟩

/-- The events of a request that was refused for good were in no later one. -/
theorem lastRefused_of_last {earlier : List Post} {last : Post} (split : sent.posts = earlier ++ [last])
    (spec : sent.Spec world chunk pass pending attempts time) (refused : Refused world last) :
    ∀ id ∈ idsOf pending, LastRefused world (posts ++ sent.posts) id := by
  intro id member
  have carried : last.body = pending := (spec.posts last (by simp [split])).body
  refine ⟨posts ++ earlier, last, [], ?_, carried.symm ▸ member, fun _ absent => absurd absent List.not_mem_nil,
    refused⟩
  rw [split, List.append_assoc]

theorem permanent_refused (spec : sent.Spec world chunk pass pending attempts time) {detail : String}
    (failed : sent.exchange = .stopped (.failed false detail)) :
    ∀ id ∈ idsOf pending, LastRefused world (posts ++ sent.posts) id := by
  have concluded := spec.concluded
  rw [failed] at concluded
  rcases concluded.inv with ⟨-, idle⟩ | ⟨earlier, last, split, retried, ending⟩
  · simp [Exchange.Idle] at idle
  · refine lastRefused_of_last split spec ?_
    cases ending with
    | refused status body detail answered permanent => exact ⟨status, body, answered, .inl permanent⟩
    | silent exchange kind => simp [Exchange.Idle] at kind

theorem untrusted_refused {body : Option (Json Double)} (spec : sent.Spec world chunk pass pending attempts time)
    (invalid : sent.exchange = .invalid body) (untrusted : parseValidationErrors body pending.length = none) :
    ∀ id ∈ idsOf pending, LastRefused world (posts ++ sent.posts) id := by
  have concluded := spec.concluded
  rw [invalid] at concluded
  obtain ⟨earlier, last, split, retried, answered⟩ := concluded.invalid
  have carried : last.body = pending := (spec.posts last (by simp [split])).body
  exact lastRefused_of_last split spec ⟨422, body, answered, .inr ⟨rfl, carried.symm ▸ untrusted⟩⟩

end Requests

/-- What a delivery has to be before a chunk, or what is left of it, is sent. -/
structure Ready (world : World) (early : List (String × Option String)) (progress : Progress)
    (pending : List LagoEvent) : Prop where
  books : ∃ held named, Books world early progress.tally progress.posts held named
  refused : progress.tally.refused = []
  fresh : (progress.tally.settled ++ idsOf pending).Nodup
  inside : ∀ id ∈ idsOf pending, id ∈ idsOf progress.tally.events

/-- What it is once the chunk has ended. -/
structure Ended (world : World) (early : List (String × Option String)) (before : Progress)
    (pending : List LagoEvent) (how : ChunkEnd) (after : Progress) : Prop where
  books : ∃ held named, Books world early after.tally after.posts held named
  events : after.tally.events = before.tally.events
  stop : after.tally.stop = before.tally.stop
  refused : after.tally.refused = [] ∨
    (how ≠ .settled ∧ ∀ id ∈ after.tally.refused.map Prod.fst, LastRefused world after.posts id)
  grown : ∀ id ∈ after.tally.settled, id ∈ before.tally.settled ∨ id ∈ idsOf pending

section Chunks

variable {progress : Progress} {chunk pass attempts : Nat} {sent : Exchanged}

theorem ended_refuse (ready : Ready world early progress pending) {how : ChunkEnd} (detail : String)
    (unsettled : how ≠ .settled) (silent : Silent world sent.posts)
    (last : ∀ id ∈ idsOf pending, LastRefused world (progress.posts ++ sent.posts) id) :
    Ended world early progress pending how (progress.after sent (progress.tally.refuse pending detail)) := by
  obtain ⟨held, named, books⟩ := ready.books
  refine ⟨⟨held, named, books.refuse detail ready.fresh ready.inside silent⟩, rfl, rfl, .inr ⟨unsettled, ?_⟩, ?_⟩
  · intro id member
    simp only [Progress.after, Tally.refuse, ready.refused, List.nil_append, List.map_map, List.mem_map,
      Function.comp_apply] at member
    obtain ⟨other, present, rfl⟩ := member
    exact last other present
  · exact fun id member => List.mem_append.mp member

theorem ended_silent (ready : Ready world early progress pending) (how : ChunkEnd)
    (silent : Silent world sent.posts) :
    Ended world early progress pending how (progress.after sent progress.tally) := by
  obtain ⟨held, named, books⟩ := ready.books
  exact ⟨⟨held, named, books.silent silent⟩, rfl, rfl, .inl ready.refused, fun id member => .inl member⟩

/-- A request that ends its chunk. -/
theorem ended_of_ends (ready : Ready world early progress pending)
    (spec : sent.Spec world chunk pass pending attempts progress.time) {how : ChunkEnd} {after : Tally}
    (ends : afterExchange pass pending progress.tally sent.exchange = .ends how after) :
    Ended world early progress pending how (progress.after sent after) := by
  cases exchanged : sent.exchange with
  | accepted =>
    rw [exchanged] at ends
    cases ends
    obtain ⟨held, named, books⟩ := ready.books
    obtain ⟨confirmed, unnamed⟩ := accepted_evidence spec exchanged
    exact ⟨⟨_, named, books.confirm ready.fresh ready.inside confirmed unnamed⟩, rfl, rfl, .inl ready.refused,
      fun id member => List.mem_append.mp member⟩
  | invalid body =>
    rw [exchanged, afterExchange] at ends
    by_cases large : exceedsBatchLimit body = true
    · rw [if_pos large] at ends
      cases ends
      have untrusted := parse_of_exceeds large pending.length
      exact ended_refuse ready _ (by simp) (unacted_evidence spec exchanged (.inr untrusted))
        (untrusted_refused spec exchanged untrusted)
    · rw [if_neg large] at ends
      by_cases last : pass = maxSalvagePasses
      · rw [if_pos last] at ends
        cases ends
        exact ended_silent ready _ (unacted_evidence spec exchanged (.inl last))
      · rw [if_neg last] at ends
        cases untrusted : parseValidationErrors body pending.length with
        | none =>
          rw [untrusted] at ends
          cases ends
          exact ended_refuse ready _ (by simp) (unacted_evidence spec exchanged (.inr untrusted))
            (untrusted_refused spec exchanged untrusted)
        | some verdict =>
          rw [untrusted] at ends
          cases ends
  | stopped stop =>
    have silent := other_evidence spec (by simp [exchanged]) (by simp [exchanged])
    rw [exchanged] at ends
    unfold afterExchange at ends
    simp only at ends
    split at ends
    next detail =>
      cases ends
      exact ended_refuse ready _ (by simp) silent (permanent_refused spec exchanged)
    · cases ends
      exact ended_silent ready _ silent
  | raised =>
    have silent := other_evidence spec (by simp [exchanged]) (by simp [exchanged])
    rw [exchanged] at ends
    cases ends
    exact ended_silent ready _ silent

/-- A request whose `422` is acted on leaves the delivery ready to send the other events. -/
theorem ready_of_again (ready : Ready world early progress pending)
    (spec : sent.Spec world chunk pass pending attempts progress.time) (bound : pass ≤ maxSalvagePasses)
    {after : Tally} {survivors : List LagoEvent}
    (again : afterExchange pass pending progress.tally sent.exchange = .again after survivors) :
    Ready world early (progress.after sent after) survivors ∧ after.events = progress.tally.events ∧
      after.stop = progress.tally.stop ∧
      ∀ id, id ∈ after.settled ∨ id ∈ idsOf survivors → id ∈ progress.tally.settled ∨ id ∈ idsOf pending := by
  obtain ⟨acted, body, verdict, invalid, trusted, settled⟩ := afterExchange_again again
  obtain ⟨held, named, books⟩ := ready.books
  obtain ⟨confirmed, invalids⟩ := verdict_evidence spec invalid (lt_of_le_of_ne bound acted) trusted
  obtain ⟨distinct, named', later⟩ := books.narrow settled ready.fresh ready.inside confirmed invalids
  have smaller : ∀ id ∈ idsOf survivors, id ∈ idsOf pending := (settled.kept.map _).subset
  refine ⟨⟨⟨_, named', later⟩, settled.refused.trans ready.refused, distinct, ?_⟩, settled.events, settled.stop, ?_⟩
  · intro id member
    simp only [Progress.after, settled.events]
    exact ready.inside id (smaller id member)
  · rintro id (old | left)
    · rcases List.mem_append.mp (settled.settled.mem_iff.mp old) with before | new
      · exact .inl before
      · exact .inr (settled.divided.mem_iff.mpr (List.mem_append_left _ new))
    · exact .inr (smaller id left)

theorem deliverChunk_ended (policy : RetryPolicy) (chunk left : Nat) (pending : List LagoEvent)
    (ready : Ready world early progress pending) :
    Ended world early progress pending (deliverChunk world policy chunk left pending progress).1
      (deliverChunk world policy chunk left pending progress).2 := by
  induction left generalizing pending progress with
  | zero =>
    unfold deliverChunk
    split
    · exact ⟨ready.books, rfl, rfl, .inl ready.refused, fun id member => .inl member⟩
    · have spec := exchange_spec world policy chunk (maxSalvagePasses - 0) pending progress.time
      simp only
      split
      next how tally ends => exact ended_of_ends ready spec ends
      next tally survivors again => exact absurd rfl (afterExchange_again again).1
  | succ left ih =>
    unfold deliverChunk
    split
    · exact ⟨ready.books, rfl, rfl, .inl ready.refused, fun id member => .inl member⟩
    · have spec := exchange_spec world policy chunk (maxSalvagePasses - (left + 1)) pending progress.time
      simp only
      split
      next how tally ends => exact ended_of_ends ready spec ends
      next tally survivors again =>
        obtain ⟨next_, events, stop, within⟩ := ready_of_again ready spec (Nat.sub_le _ _) again
        have rest := ih survivors next_
        refine ⟨rest.books, rest.events.trans events, rest.stop.trans stop, rest.refused, fun id member => ?_⟩
        exact within id (rest.grown id member)

end Chunks

theorem Books.halt (books : Books world early tally posts held named) (stop : Stop) :
    Books world early (tally.halt stop) posts held named :=
  ⟨books.rejected, books.settled, books.confirmed, books.held_iff, books.named_iff, books.distinct, books.inside⟩

/-- What a delivery is once sending has ended. -/
structure Finished (world : World) (early : List (String × Option String)) (before after : Progress) : Prop where
  books : ∃ held named, Books world early after.tally after.posts held named
  events : after.tally.events = before.tally.events
  refused : after.tally.refused = [] ∨
    (after.tally.stop.isSome = true ∧ ∀ id ∈ after.tally.refused.map Prod.fst, LastRefused world after.posts id)

/-- Once a chunk is settled, the delivery is ready for those that follow it. -/
theorem Ended.ready {progress after : Progress} {events rest : List LagoEvent}
    (ready : Ready world early progress (events ++ rest)) (ended : Ended world early progress events .settled after) :
    Ready world early after rest := by
  have apart := ready.fresh
  rw [idsOf, List.map_append, ← List.append_assoc] at apart
  have others : (idsOf rest).Nodup := apart.of_append_right
  have disjoint := List.disjoint_of_nodup_append apart
  obtain ⟨held, named, books⟩ := ended.books
  refine ⟨⟨held, named, books⟩, ended.refused.resolve_right fun both => both.1 rfl, ?_, ?_⟩
  · refine List.nodup_append.mpr ⟨books.distinct, others, ?_⟩
    rintro id member _ later rfl
    exact disjoint (List.mem_append.mpr (ended.grown id member)) later
  · intro id member
    rw [ended.events]
    refine ready.inside id ?_
    rw [idsOf, List.map_append]
    exact List.mem_append_right _ member

theorem Ready.first {progress : Progress} {events rest : List LagoEvent}
    (ready : Ready world early progress (events ++ rest)) : Ready world early progress events := by
  have apart := ready.fresh
  rw [idsOf, List.map_append, ← List.append_assoc] at apart
  refine ⟨ready.books, ready.refused, apart.of_append_left, fun id member => ready.inside id ?_⟩
  rw [idsOf, List.map_append]
  exact List.mem_append_left _ member

theorem deliverChunks_finished (policy : RetryPolicy) (start : Nat) (chunks : List (List LagoEvent))
    (progress : Progress) (ready : Ready world early progress chunks.flatten) :
    Finished world early progress (deliverChunks world policy start chunks progress) := by
  induction chunks generalizing start progress with
  | nil => exact ⟨ready.books, rfl, .inl ready.refused⟩
  | cons events rest ih =>
    unfold deliverChunks
    split
    · exact ⟨ready.books, rfl, .inl ready.refused⟩
    · have ended := deliverChunk_ended policy start maxSalvagePasses events (Ready.first ready)
      simp only
      generalize deliverChunk world policy start maxSalvagePasses events progress = chunkRun at ended
      obtain ⟨how, later⟩ := chunkRun
      dsimp only at ended ⊢
      cases how with
      | settled =>
        have logged : Ended world early progress events .settled { later with ends := later.ends ++ [.settled] } :=
          ⟨ended.books, ended.events, ended.stop, ended.refused, ended.grown⟩
        have rest_finished := ih (start + 1) _ (logged.ready ready)
        exact ⟨rest_finished.books, rest_finished.events.trans ended.events, rest_finished.refused⟩
      | stopped stop =>
        obtain ⟨held, named, books⟩ := ended.books
        dsimp only
        rw [deliverChunks_halted (start + 1) rest]
        · exact ⟨⟨held, named, books.halt stop⟩, ended.events,
            ended.refused.imp id fun both => ⟨halt_isSome _ _, both.2⟩⟩
        · exact halt_isSome _ _
      | raised =>
        obtain ⟨held, named, books⟩ := ended.books
        exact ⟨⟨held, named, books.halt _⟩, ended.events,
          ended.refused.imp id fun both => ⟨halt_isSome _ _, both.2⟩⟩

variable {R : Type} [AudrRecord R]

theorem accepted_inv {rejected : List (String × Option String)} {unknown : List String}
    (accepted : tally.result = .accepted rejected unknown) :
    unknown = tally.unresolved ∧
      ((tally.stop = none ∧ rejected = tally.rejected) ∨
        (tally.stop.isSome = true ∧ rejected = tally.rejected ++ tally.refused)) := by
  unfold Tally.result at accepted
  cases stop : tally.stop with
  | none =>
    rw [stop] at accepted
    cases accepted
    exact ⟨rfl, .inl ⟨rfl, rfl⟩⟩
  | some how =>
    rw [stop] at accepted
    simp only at accepted
    split at accepted
    · cases accepted
      exact ⟨rfl, .inr ⟨rfl, rfl⟩⟩
    · split at accepted <;> cases accepted

/-- The whole batch fails only while nothing is confirmed or rejected. -/
theorem whole_inv (whole : ∀ rejected unknown, tally.result ≠ .accepted rejected unknown) :
    tally.confirmed = 0 ∧ tally.rejected = [] := by
  unfold Tally.result at whole
  cases stop : tally.stop with
  | none =>
    rw [stop] at whole
    exact absurd rfl (whole _ _)
  | some how =>
    rw [stop] at whole
    simp only at whole
    split at whole
    · exact absurd rfl (whole _ _)
    next unsettled =>
      simp only [not_or, not_not] at unsettled
      exact ⟨Nat.eq_zero_of_not_pos unsettled.2.2.1, unsettled.2.2.2⟩

/-- What the result of a delivery says of the records of its batch, once a pipeline applies it. -/
structure Sound (world : World) (encoder : Encoder R) (readable : Bool) (batch : List (InFlight R)) (run : Delivered) :
    Prop where
  /-- No id is listed twice, in one list or in both. -/
  lists : ∀ rejected unknown, run.result = .accepted rejected unknown →
    (rejected.map Prod.fst).Nodup ∧ unknown.Nodup ∧ ∀ id ∈ rejected.map Prod.fst, id ∉ unknown
  /-- A record is in neither list exactly when Lago confirmed it. -/
  unlisted : ∀ rejected unknown, run.result = .accepted rejected unknown → ∀ item ∈ batch,
    AudrRecord.recordId item.record ∉ rejected.map Prod.fst ∧ AudrRecord.recordId item.record ∉ unknown ↔
      Confirmed world run.posts (AudrRecord.recordId item.record)
  /-- A record is rejected for a reason of its own, or with the last request that carried it. -/
  rejected : ∀ rejected unknown, run.result = .accepted rejected unknown → ∀ id ∈ rejected.map Prod.fst,
    id ∈ OrderedMap.keys (preflight encoder (batch.map InFlight.record)).rejected ∨ Named world run.posts id ∨
      LastRefused world run.posts id
  /-- A batch fails as a whole only if no record is confirmed or rejected by name, nor refused
  before any request where the batch is read at all. -/
  whole : (∀ rejected unknown, run.result ≠ .accepted rejected unknown) →
    (∀ id, ¬ Confirmed world run.posts id ∧ ¬ Named world run.posts id) ∧
      (readable = true → world.closed 0 = false → (preflight encoder (batch.map InFlight.record)).rejected = [])
  /-- The pipeline counts exactly the confirmed records as sent. -/
  counted : ∀ entry ∈ Pipeline.counted batch run.result,
    entry.2 = .sent ↔ Confirmed world run.posts (AudrRecord.recordId entry.1)

theorem unconfirmed_nil (world : World) (id : String) : ¬ Confirmed world [] id ∧ ¬ Named world [] id := by
  constructor <;> (rintro ⟨post, member, -⟩; exact absurd member List.not_mem_nil)

/-- A delivery that ends before it reads the batch. -/
theorem sound_unsent (encoder : Encoder R) (batch : List (InFlight R)) {readable : Bool} {result : BatchResult}
    (unread : readable = true → world.closed 0 = true) (whole : ∀ rejected unknown, result ≠ .accepted rejected unknown) :
    Sound world encoder readable batch ⟨result, [], []⟩ := by
  refine ⟨?_, ?_, ?_, ?_, ?_⟩
  · exact fun rejected unknown same => absurd same (whole _ _)
  · exact fun rejected unknown same => absurd same (whole _ _)
  · exact fun rejected unknown same => absurd same (whole _ _)
  · refine fun _ => ⟨unconfirmed_nil world, fun read opened => ?_⟩
    rw [unread read] at opened
    cases opened
  · intro entry member
    rw [Pipeline.counted_failed _ _ whole] at member
    obtain ⟨record, -, rfl⟩ := List.mem_map.mp member
    simp [(unconfirmed_nil world _).1]

/-- What a result is made of, for a tally whose books are right. -/
structure Final (world : World) (early : List (String × Option String)) (tally : Tally) (posts : List Post) :
    Prop where
  books : ∃ held named, Books world early tally posts held named
  refused : tally.refused = [] ∨
    (tally.stop.isSome = true ∧ ∀ id ∈ tally.refused.map Prod.fst, LastRefused world posts id)
  refusals : (early.map Prod.fst).Nodup
  apart : ∀ id ∈ early.map Prod.fst, id ∉ idsOf tally.events
  events : (idsOf tally.events).Nodup

/-- The rejections of an accepted result: those made early, those answers led to, and, once
sending has stopped, those of a request that was refused. -/
theorem Final.rejected_ids (final : Final world early tally posts) {rejected : List (String × Option String)}
    {unknown : List String} (accepted : tally.result = .accepted rejected unknown) :
    ∃ held named, Books world early tally posts held named ∧
      rejected.map Prod.fst = early.map Prod.fst ++ named.map Prod.fst ++ tally.refused.map Prod.fst := by
  obtain ⟨held, named, books⟩ := final.books
  refine ⟨held, named, books, ?_⟩
  rcases (accepted_inv accepted).2 with ⟨going, rfl⟩ | ⟨stopped, rfl⟩
  · have none : tally.refused = [] := by
      refine final.refused.resolve_right fun both => ?_
      rw [going] at both
      exact absurd both.1 (by simp)
    simp [books.rejected, none]
  · simp [books.rejected]

theorem Final.lists (final : Final world early tally posts) {rejected : List (String × Option String)}
    {unknown : List String} (accepted : tally.result = .accepted rejected unknown) :
    (rejected.map Prod.fst).Nodup ∧ unknown.Nodup ∧ ∀ id ∈ rejected.map Prod.fst, id ∉ unknown := by
  obtain ⟨held, named, books, ids⟩ := final.rejected_ids accepted
  have unresolved := (accepted_inv accepted).1
  have settled := books.settled.nodup_iff.mp books.distinct
  rw [List.append_assoc] at settled
  have inside : ∀ id, id ∈ named.map Prod.fst ++ tally.refused.map Prod.fst → id ∈ tally.settled := by
    intro id member
    rw [books.settled.mem_iff, List.append_assoc]
    exact List.mem_append_right _ member
  refine ⟨?_, ?_, ?_⟩
  · rw [ids, List.append_assoc]
    refine List.nodup_append.mpr ⟨final.refusals, settled.of_append_right, ?_⟩
    rintro id first _ later rfl
    exact final.apart id first (books.inside id (inside id later))
  · rw [unresolved]
    exact final.events.filter _
  · intro id member inconclusive
    rw [unresolved, Tally.unresolved, List.mem_filter, decide_eq_true_eq] at inconclusive
    rw [ids, List.append_assoc] at member
    rcases List.mem_append.mp member with first | later
    · exact final.apart id first inconclusive.1
    · exact inconclusive.2 (inside id later)

theorem Final.unlisted (final : Final world early tally posts) {rejected : List (String × Option String)}
    {unknown : List String} (accepted : tally.result = .accepted rejected unknown) {id : String}
    (known : id ∈ idsOf tally.events ∨ id ∈ early.map Prod.fst) :
    id ∉ rejected.map Prod.fst ∧ id ∉ unknown ↔ Confirmed world posts id := by
  obtain ⟨held, named, books, ids⟩ := final.rejected_ids accepted
  have unresolved := (accepted_inv accepted).1
  have settled := books.settled.nodup_iff.mp books.distinct
  rw [List.append_assoc] at settled
  rw [← books.held_iff, ids, unresolved, Tally.unresolved, List.mem_filter, decide_eq_true_eq, List.append_assoc]
  constructor
  · rintro ⟨unlisted, resolved⟩
    rw [List.mem_append, not_or] at unlisted
    have event := known.resolve_right unlisted.1
    have member : id ∈ tally.settled := by
      by_contra absent
      exact resolved ⟨event, absent⟩
    rw [books.settled.mem_iff, List.append_assoc, List.mem_append] at member
    exact member.resolve_right unlisted.2
  · intro confirmed
    have member : id ∈ tally.settled := books.settled.mem_iff.mpr
      (List.mem_append_left _ (List.mem_append_left _ confirmed))
    refine ⟨?_, fun both => both.2 member⟩
    intro listed
    rcases List.mem_append.mp listed with first | later
    · exact final.apart id first (books.inside id member)
    · exact List.disjoint_of_nodup_append settled confirmed later

theorem Final.rejected (final : Final world early tally posts) {rejected : List (String × Option String)}
    {unknown : List String} (accepted : tally.result = .accepted rejected unknown) {id : String}
    (member : id ∈ rejected.map Prod.fst) :
    id ∈ early.map Prod.fst ∨ Named world posts id ∨ LastRefused world posts id := by
  obtain ⟨held, named, books, ids⟩ := final.rejected_ids accepted
  rw [ids, List.append_assoc] at member
  rcases List.mem_append.mp member with first | later
  · exact .inl first
  · rcases List.mem_append.mp later with answered | refused
    · exact .inr (.inl ((books.named_iff id).mp answered))
    · rcases final.refused with none | ⟨-, last⟩
      · rw [none] at refused
        cases refused
      · exact .inr (.inr (last id refused))

theorem Final.whole (final : Final world early tally posts)
    (whole : ∀ rejected unknown, tally.result ≠ .accepted rejected unknown) :
    (∀ id, ¬ Confirmed world posts id ∧ ¬ Named world posts id) ∧ early = [] := by
  obtain ⟨held, named, books⟩ := final.books
  obtain ⟨confirmed, rejected⟩ := whole_inv whole
  rw [books.rejected] at rejected
  obtain ⟨first, later⟩ := List.append_eq_nil_iff.mp rejected
  have none : held = [] := List.length_eq_zero_iff.mp (books.confirmed.symm.trans confirmed)
  refine ⟨fun id => ?_, first⟩
  rw [← books.held_iff, ← books.named_iff, none, later]
  exact ⟨List.not_mem_nil, List.not_mem_nil⟩

/-- Every delivery is sound, whatever it is answered and whenever it is interrupted. -/
theorem deliver_sound (encoder : Encoder R) (world : World) (policy : RetryPolicy) (readable : Bool)
    (batch : List (InFlight R)) :
    Sound world encoder readable batch (deliver encoder world policy readable (batch.map InFlight.record)) := by
  unfold deliver
  split
  next closed => exact sound_unsent _ _ (fun _ => closed) (by simp)
  split
  next read =>
    have valid := preflight_valid encoder (batch.map InFlight.record)
    have ids := tallied_ids _ valid
    have known : ∀ item ∈ batch, (preflight encoder (batch.map InFlight.record)).Knows
        (AudrRecord.recordId item.record) := fun item member =>
      preflight_knows encoder (List.mem_map_of_mem member)
    have positive : 0 < maxEventsPerRequest := by decide
    have whole := slices_flatten positive _ (tallied (preflight encoder (batch.map InFlight.record))).events
      (le_refl _)
    have ready : Ready world (tallied (preflight encoder (batch.map InFlight.record))).rejected
        { tally := tallied (preflight encoder (batch.map InFlight.record)), time := 0 }
        (slices maxEventsPerRequest (tallied (preflight encoder (batch.map InFlight.record))).events.length
          (tallied (preflight encoder (batch.map InFlight.record))).events).flatten := by
      refine ⟨⟨[], [], ?_⟩, rfl, ?_, ?_⟩
      · constructor <;> simp [tallied, unconfirmed_nil]
      · rw [whole, ids]
        exact valid.events
      · rw [whole]
        exact fun id member => member
    have finished := deliverChunks_finished policy 0 _ _ ready
    dsimp only
    generalize deliverChunks world policy 0 _ _ = run at finished ⊢
    have early : (tallied (preflight encoder (batch.map InFlight.record))).rejected.map Prod.fst =
        OrderedMap.keys (preflight encoder (batch.map InFlight.record)).rejected := by
      simp [tallied, OrderedMap.keys, Function.comp_def]
    have events : idsOf run.tally.events = OrderedMap.keys (preflight encoder (batch.map InFlight.record)).events := by
      rw [finished.events]
      exact ids
    have final : Final world (tallied (preflight encoder (batch.map InFlight.record))).rejected run.tally
        run.posts := by
      refine ⟨finished.books, finished.refused, early ▸ valid.rejected, ?_, events ▸ valid.events⟩
      intro id first event
      rw [early] at first
      rw [events] at event
      exact valid.apart id event first
    have either : ∀ item ∈ batch, AudrRecord.recordId item.record ∈ idsOf run.tally.events ∨
        AudrRecord.recordId item.record ∈
          (tallied (preflight encoder (batch.map InFlight.record))).rejected.map Prod.fst := by
      rw [events, early]
      exact known
    refine ⟨?_, ?_, ?_, ?_, ?_⟩
    · exact fun rejected unknown accepted => final.lists accepted
    · exact fun rejected unknown accepted item member => final.unlisted accepted (either item member)
    · intro rejected unknown accepted id member
      rw [← early]
      exact final.rejected accepted member
    · intro unaccepted
      obtain ⟨silent, none⟩ := final.whole unaccepted
      refine ⟨silent, fun _ _ => ?_⟩
      simpa [tallied] using none
    · intro entry member
      by_cases accepted : ∃ rejected unknown, run.tally.result = .accepted rejected unknown
      · obtain ⟨rejected, unknown, accepted⟩ := accepted
        dsimp only at member
        rw [accepted, Pipeline.counted_accepted, List.map_map] at member
        obtain ⟨item, present, rfl⟩ := List.mem_map.mp member
        exact acceptedAs_sent.trans (final.unlisted accepted (either item present))
      · have unaccepted : ∀ rejected unknown, run.tally.result ≠ .accepted rejected unknown :=
          fun rejected unknown same => accepted ⟨rejected, unknown, same⟩
        dsimp only at member
        rw [Pipeline.counted_failed _ _ unaccepted] at member
        obtain ⟨record, -, rfl⟩ := List.mem_map.mp member
        simp [(final.whole unaccepted).1]
  next unread => exact sound_unsent _ _ (fun read => absurd read unread) (by simp)

/-- A record that is its own id becomes an event of that id. -/
def plainEncoder : Encoder String where
  encode id := .ok ⟨id, "sub", "metric", "1700000000.000", []⟩
  stringify := LagoEvent.transactionId
  identified := by
    rintro record event ⟨⟩
    rfl

/-- A `422` that names the first event of a request for one code of one field. -/
def namesFirst (field code : String) : Settlement :=
  .response 422 (some (.obj [("error_details", .obj [("0", .obj [(field, .arr [.str code])])])]))

/-- Three answers that refuse an event, and a fourth that finds one held. -/
def fourRefusals : World where
  closed _ := false
  aborted _ := false
  settlement time := if time < 9 then namesFirst "timestamp" "invalid_format" else namesFirst duplicateField duplicateCode
  serializes _ := true
  readsHeaders _ := true
  closed_stays := fun _ closed => closed
  aborted_stays := fun _ aborted => aborted

/-- The fourth `422` of a request names its only event as one Lago holds, and the event is
reported unknown. -/
theorem fourth_refusal_unknown :
    (deliver plainEncoder fourRefusals ⟨3, by decide⟩ true ["a", "b", "c", "d"]).result =
        .accepted [("a", some "timestamp:invalid_format"), ("b", some "timestamp:invalid_format"),
          ("c", some "timestamp:invalid_format")] ["d"] ∧
      ∃ post ∈ (deliver plainEncoder fourRefusals ⟨3, by decide⟩ true ["a", "b", "c", "d"]).posts,
        Held fourRefusals post "d" := by
  refine ⟨by decide +kernel, ⟨0, 3, 1, 9, [⟨"d", "sub", "metric", "1700000000.000", []⟩]⟩, by decide +kernel, ?_⟩
  exact ⟨⟨[0], []⟩, by decide +kernel, by decide⟩

end Audr.Lago
