import Audr.Lago.Evidence
import Mathlib.Tactic.Ring

/-! Which requests a delivery makes: their sizes, their order, how often a body is posted,
and when no further request is sent. -/

namespace Audr.Lago

variable {world : World} {policy : RetryPolicy}

/-- The calls of `fetch` one chunk leads to, from a pass on. -/
structure ChunkPosts (world : World) (policy : RetryPolicy) (chunk left : Nat) (pending : List LagoEvent)
    (posts : List Post) : Prop where
  chunk : ∀ post ∈ posts, post.chunk = chunk
  pass : ∀ post ∈ posts, maxSalvagePasses - left ≤ post.pass ∧ post.pass ≤ maxSalvagePasses
  body : ∀ post ∈ posts, post.body ≠ [] ∧ post.body.Sublist pending
  uninterrupted : ∀ post ∈ posts, world.interruption post.time = none
  count : posts.length ≤ (left + 1) * policy.maxAttempts
  same : ∀ post ∈ posts, ∀ other ∈ posts, post.pass = other.pass → post.body = other.body
  closing : posts.Pairwise fun post later => ∀ id, Closes world post id → id ∉ idsOf later.body

theorem chunkPosts_nil (chunk left : Nat) (pending : List LagoEvent) :
    ChunkPosts world policy chunk left pending [] := by
  constructor <;> simp

/-- The calls of a single request. -/
theorem chunkPosts_of_spec {chunk left time : Nat} {pending : List LagoEvent} {sent : Exchanged}
    (present : pending ≠ []) (spec : sent.Spec world chunk (maxSalvagePasses - left) pending policy.maxAttempts time) :
    ChunkPosts world policy chunk left pending sent.posts := by
  constructor
  · exact fun post member => (spec.posts post member).chunk
  · intro post member
    rw [(spec.posts post member).pass]
    exact ⟨le_refl _, Nat.sub_le _ _⟩
  · intro post member
    rw [(spec.posts post member).body]
    exact ⟨present, List.Sublist.refl _⟩
  · exact fun post member => (spec.posts post member).uninterrupted
  · exact spec.count.trans (Nat.le_mul_of_pos_left _ (Nat.succ_pos _))
  · intro post member other present' _
    rw [(spec.posts post member).body, (spec.posts other present').body]
  · exact spec.concluded.closing

/-- What the calls of a request that is narrowed close is not in what is sent again. -/
theorem narrowed_closing {chunk pass attempts time : Nat} {pending survivors : List LagoEvent} {sent : Exchanged}
    {tally after : Tally} {body : Option (Json Double)} {verdict : ValidationVerdict}
    (spec : sent.Spec world chunk pass pending attempts time) (invalid : sent.exchange = .invalid body)
    (trusted : parseValidationErrors body pending.length = some verdict)
    (settled : Settled verdict 0 pending tally after survivors) (distinct : (idsOf pending).Nodup) :
    ∀ post ∈ sent.posts, ∀ id, Closes world post id → id ∉ idsOf survivors := by
  have concluded := spec.concluded
  rw [invalid] at concluded
  obtain ⟨earlier, last, split, retried, answered⟩ := concluded.invalid
  intro post member id closes
  have body_eq := (spec.posts post member).body
  rw [split] at member
  rcases List.mem_append.mp member with before | final
  · exact absurd closes ((retried post before).closes_nothing id)
  · rw [List.mem_singleton.mp final] at closes body_eq
    obtain ⟨unconfirmed, read⟩ := verdictOf_invalid answered
    rw [body_eq, trusted] at read
    rcases closes.2 with confirmed | ⟨other, said, held⟩ | ⟨other, said, named⟩ | ⟨status, text, said, refused⟩
    · exact absurd confirmed (unconfirmed id)
    · rw [read] at said
      cases said
      exact settled.apart distinct (.inr (body_eq ▸ held))
    · rw [read] at said
      cases said
      exact settled.apart distinct (.inl (body_eq ▸ named))
    · rw [answered] at said
      cases said
      rcases refused with permanent | ⟨-, untrusted⟩
      · rw [classifyStatus_invalid.mpr rfl] at permanent
        simp at permanent
      · rw [body_eq, trusted] at untrusted
        cases untrusted

theorem idsOf_sublist {events more : List LagoEvent} (kept : events.Sublist more) :
    (idsOf events).Sublist (idsOf more) := kept.map _

/-- One request and then those for the events that are sent again. -/
theorem chunkPosts_append {chunk left time : Nat} {pending survivors : List LagoEvent} {sent : Exchanged}
    {later : List Post} (present : pending ≠ []) (room : left + 1 ≤ maxSalvagePasses)
    (spec : sent.Spec world chunk (maxSalvagePasses - (left + 1)) pending policy.maxAttempts time)
    (kept : survivors.Sublist pending)
    (narrowed : ∀ post ∈ sent.posts, ∀ id, Closes world post id → id ∉ idsOf survivors)
    (rest : ChunkPosts world policy chunk left survivors later) :
    ChunkPosts world policy chunk (left + 1) pending (sent.posts ++ later) := by
  have first := chunkPosts_of_spec present spec
  have apart : ∀ post ∈ sent.posts, ∀ other ∈ later, post.pass ≠ other.pass := by
    intro post member other member' same
    have low := (rest.pass other member').1
    rw [← same, (spec.posts post member).pass] at low
    omega
  constructor
  · exact fun post member => (List.mem_append.mp member).elim (first.chunk post) (rest.chunk post)
  · intro post member
    rcases List.mem_append.mp member with before | after
    · exact first.pass post before
    · have between := rest.pass post after
      exact ⟨by omega, between.2⟩
  · intro post member
    rcases List.mem_append.mp member with before | after
    · exact first.body post before
    · exact ⟨(rest.body post after).1, (rest.body post after).2.trans kept⟩
  · exact fun post member => (List.mem_append.mp member).elim (first.uninterrupted post) (rest.uninterrupted post)
  · have attempts := spec.count
    have others := rest.count
    rw [List.length_append]
    calc sent.posts.length + later.length
        ≤ policy.maxAttempts + (left + 1) * policy.maxAttempts := Nat.add_le_add attempts others
      _ = (left + 1 + 1) * policy.maxAttempts := by ring
  · intro post member other member' same
    rcases List.mem_append.mp member with before | after
    · rcases List.mem_append.mp member' with before' | after'
      · exact first.same post before other before' same
      · exact absurd same (apart post before other after')
    · rcases List.mem_append.mp member' with before' | after'
      · exact absurd same.symm (apart other before' post after)
      · exact rest.same post after other after' same
  · refine List.pairwise_append.mpr ⟨first.closing, rest.closing, ?_⟩
    intro post member other member' id closes present'
    exact narrowed post member id closes ((idsOf_sublist (rest.body other member').2).subset present')

/-- The calls `#deliverChunk` makes. -/
theorem deliverChunk_posts (world : World) (policy : RetryPolicy) (chunk left : Nat) (pending : List LagoEvent) (progress : Progress)
    (distinct : (idsOf pending).Nodup) (room : left ≤ maxSalvagePasses) :
    (deliverChunk world policy chunk left pending progress).2.ends = progress.ends ∧
      ∃ posts, (deliverChunk world policy chunk left pending progress).2.posts = progress.posts ++ posts ∧
        ChunkPosts world policy chunk left pending posts := by
  induction left generalizing pending progress with
  | zero =>
    unfold deliverChunk
    split
    · exact ⟨rfl, [], (List.append_nil _).symm, chunkPosts_nil _ _ _⟩
    next present =>
      have spec := exchange_spec world policy chunk (maxSalvagePasses - 0) pending progress.time
      simp only
      split
      · exact ⟨rfl, _, rfl, chunkPosts_of_spec present spec⟩
      · exact ⟨rfl, _, rfl, chunkPosts_of_spec present spec⟩
  | succ left ih =>
    unfold deliverChunk
    split
    · exact ⟨rfl, [], (List.append_nil _).symm, chunkPosts_nil _ _ _⟩
    next present =>
      have spec := exchange_spec world policy chunk (maxSalvagePasses - (left + 1)) pending progress.time
      simp only
      split
      · exact ⟨rfl, _, rfl, chunkPosts_of_spec present spec⟩
      next tally survivors again =>
        obtain ⟨-, body, verdict, invalid, trusted, settled⟩ := afterExchange_again again
        have shorter : (idsOf survivors).Nodup := distinct.sublist (idsOf_sublist settled.kept)
        obtain ⟨ends, later, all, rest⟩ := ih survivors (progress.after _ tally) shorter (by omega)
        refine ⟨ends, _ ++ later, ?_, chunkPosts_append present room spec settled.kept
          (narrowed_closing spec invalid trusted settled distinct) rest⟩
        rw [all]
        exact List.append_assoc _ _ _

/-- The calls a batch leads to, from a chunk on, and how the chunks end. -/
structure BatchPosts (world : World) (policy : RetryPolicy) (start : Nat) (chunks : List (List LagoEvent))
    (posts : List Post) (ends : List ChunkEnd) : Prop where
  body : ∀ post ∈ posts, start ≤ post.chunk ∧ post.body ≠ [] ∧
    ∃ events, chunks[post.chunk - start]? = some events ∧ post.body.Sublist events
  pass : ∀ post ∈ posts, post.pass ≤ maxSalvagePasses
  uninterrupted : ∀ post ∈ posts, world.interruption post.time = none
  count : ∀ chunk, (posts.filter fun post => post.chunk = chunk).length ≤ (maxSalvagePasses + 1) * policy.maxAttempts
  total : posts.length ≤ (maxSalvagePasses + 1) * policy.maxAttempts * chunks.length
  same : ∀ post ∈ posts, ∀ other ∈ posts, post.chunk = other.chunk → post.pass = other.pass → post.body = other.body
  closing : posts.Pairwise fun post later => ∀ id, Closes world post id → id ∉ idsOf later.body
  halted : ∀ post ∈ posts, ∀ chunk, start ≤ chunk → chunk < post.chunk → ends[chunk - start]? = some .settled

theorem batchPosts_nil (start : Nat) (chunks : List (List LagoEvent)) (ends : List ChunkEnd) :
    BatchPosts world policy start chunks [] ends := by
  constructor <;> simp

theorem batchPosts_single {start : Nat} {events : List LagoEvent} {rest : List (List LagoEvent)} {posts : List Post}
    (ends : List ChunkEnd) (first : ChunkPosts world policy start maxSalvagePasses events posts) :
    BatchPosts world policy start (events :: rest) posts ends := by
  constructor
  · intro post member
    have chunk := first.chunk post member
    refine ⟨chunk.ge, (first.body post member).1, events, ?_, (first.body post member).2⟩
    rw [chunk, Nat.sub_self]
    rfl
  · exact fun post member => (first.pass post member).2
  · exact first.uninterrupted
  · exact fun chunk => (List.length_filter_le _ _).trans first.count
  · exact first.count.trans (Nat.le_mul_of_pos_right _ (Nat.succ_pos _))
  · exact fun post member other member' _ => first.same post member other member'
  · exact first.closing
  · intro post member chunk low high
    have same := first.chunk post member
    omega

theorem batchPosts_append {start : Nat} {events : List LagoEvent} {rest : List (List LagoEvent)}
    {posts later : List Post} {ends : List ChunkEnd} (distinct : (idsOf (events :: rest).flatten).Nodup)
    (first : ChunkPosts world policy start maxSalvagePasses events posts)
    (others : BatchPosts world policy (start + 1) rest later ends) :
    BatchPosts world policy start (events :: rest) (posts ++ later) (.settled :: ends) := by
  have single : BatchPosts world policy start (events :: rest) posts [] := batchPosts_single [] first
  have apart : ∀ post ∈ posts, ∀ other ∈ later, post.chunk ≠ other.chunk := by
    intro post member other member' same
    have here := first.chunk post member
    have there := (others.body other member').1
    omega
  constructor
  · intro post member
    rcases List.mem_append.mp member with before | after
    · exact single.body post before
    · obtain ⟨low, present, chunk, found, kept⟩ := others.body post after
      refine ⟨by omega, present, chunk, ?_, kept⟩
      have index : post.chunk - start = (post.chunk - (start + 1)) + 1 := by omega
      rw [index, List.getElem?_cons_succ]
      exact found
  · exact fun post member => (List.mem_append.mp member).elim (single.pass post) (others.pass post)
  · exact fun post member => (List.mem_append.mp member).elim (single.uninterrupted post) (others.uninterrupted post)
  · intro chunk
    rw [List.filter_append, List.length_append]
    by_cases here : chunk = start
    · have none : later.filter (fun post => post.chunk = chunk) = [] := by
        rw [List.filter_eq_nil_iff]
        intro post member
        have low := (others.body post member).1
        simp only [decide_eq_true_eq]
        omega
      rw [none, List.length_nil, Nat.add_zero]
      exact single.count chunk
    · have none : posts.filter (fun post => post.chunk = chunk) = [] := by
        rw [List.filter_eq_nil_iff]
        intro post member
        rw [first.chunk post member]
        simpa using Ne.symm here
      rw [none, List.length_nil, Nat.zero_add]
      exact others.count chunk
  · rw [List.length_append, List.length_cons, Nat.mul_succ]
    have here := first.count
    have there := others.total
    omega
  · intro post member other member' chunk pass
    rcases List.mem_append.mp member with before | after
    · rcases List.mem_append.mp member' with before' | after'
      · exact single.same post before other before' chunk pass
      · exact absurd chunk (apart post before other after')
    · rcases List.mem_append.mp member' with before' | after'
      · exact absurd chunk.symm (apart other before' post after)
      · exact others.same post after other after' chunk pass
  · refine List.pairwise_append.mpr ⟨first.closing, others.closing, ?_⟩
    intro post member other member' id closes present
    have here : id ∈ idsOf events := (idsOf_sublist (first.body post member).2).subset closes.1
    obtain ⟨-, -, chunk, found, kept⟩ := others.body other member'
    have there : id ∈ idsOf rest.flatten := by
      obtain ⟨event, inside, named⟩ := List.mem_map.mp ((idsOf_sublist kept).subset present)
      exact List.mem_map.mpr ⟨event, List.mem_flatten.mpr ⟨chunk, List.mem_of_getElem? found, inside⟩, named⟩
    rw [List.flatten_cons, idsOf, List.map_append] at distinct
    exact List.disjoint_of_nodup_append distinct here there
  · intro post member chunk low high
    rcases List.mem_append.mp member with before | after
    · exact absurd (first.chunk post before) (by omega)
    · by_cases here : chunk = start
      · rw [here, Nat.sub_self]
        rfl
      · have index : chunk - start = (chunk - (start + 1)) + 1 := by omega
        rw [index, List.getElem?_cons_succ]
        exact others.halted post after chunk (by omega) high

/-- The calls `#deliver` makes. -/
theorem deliverChunks_posts (world : World) (policy : RetryPolicy) (start : Nat) (chunks : List (List LagoEvent)) (progress : Progress)
    (distinct : (idsOf chunks.flatten).Nodup) :
    ∃ posts ends, (deliverChunks world policy start chunks progress).posts = progress.posts ++ posts ∧
      (deliverChunks world policy start chunks progress).ends = progress.ends ++ ends ∧
      BatchPosts world policy start chunks posts ends := by
  induction chunks generalizing start progress with
  | nil => exact ⟨[], [], (List.append_nil _).symm, (List.append_nil _).symm, batchPosts_nil _ _ _⟩
  | cons events rest ih =>
    unfold deliverChunks
    split
    · exact ⟨[], [], (List.append_nil _).symm, (List.append_nil _).symm, batchPosts_nil _ _ _⟩
    · have both := distinct
      rw [List.flatten_cons, idsOf, List.map_append] at both
      obtain ⟨ended, posts, all, first⟩ := deliverChunk_posts world policy start maxSalvagePasses events progress
        both.of_append_left (le_refl _)
      simp only
      generalize deliverChunk world policy start maxSalvagePasses events progress = chunkRun at ended all
      obtain ⟨how, later⟩ := chunkRun
      simp only at ended all
      cases how with
      | settled =>
        obtain ⟨more, ends, posts_eq, ends_eq, others⟩ :=
          ih (start + 1) { later with ends := later.ends ++ [.settled] } both.of_append_right
        refine ⟨posts ++ more, .settled :: ends, ?_, ?_, batchPosts_append distinct first others⟩
        · rw [posts_eq, all]
          exact List.append_assoc _ _ _
        · rw [ends_eq, ended]
          exact List.append_assoc _ _ _
      | stopped stop =>
        dsimp only
        rw [deliverChunks_halted _ _ (halt_isSome _ _)]
        exact ⟨posts, [.stopped stop], all, congrArg (· ++ _) ended, batchPosts_single _ first⟩
      | raised => exact ⟨posts, [.raised], all, congrArg (· ++ _) ended, batchPosts_single _ first⟩

variable {R : Type} [AudrRecord R]

/-- The requests of one delivery. -/
structure Disciplined (world : World) (policy : RetryPolicy) (batch : List R) (run : Delivered) : Prop where
  /-- Each carries between one and a hundred events, of distinct ids, in the order of the batch. -/
  size : ∀ post ∈ run.posts, 1 ≤ post.body.length ∧ post.body.length ≤ 100
  distinct : ∀ post ∈ run.posts, (idsOf post.body).Nodup
  ordered : ∀ post ∈ run.posts, (idsOf post.body).Sublist (batch.map AudrRecord.recordId)
  /-- An event that was confirmed, rejected or refused is in no later one. -/
  closing : run.posts.Pairwise fun post later => ∀ id, Closes world post id → id ∉ idsOf later.body
  /-- Every attempt of a request has the same body. -/
  same : ∀ post ∈ run.posts, ∀ other ∈ run.posts, post.chunk = other.chunk → post.pass = other.pass →
    post.body = other.body
  /-- A chunk is posted in at most four bodies, and four times the attempts in all. -/
  bodies : ∀ chunk, ∃ bodies : List (List LagoEvent), bodies.length ≤ 4 ∧
    ∀ post ∈ run.posts, post.chunk = chunk → post.body ∈ bodies
  attempts : ∀ chunk, (run.posts.filter fun post => post.chunk = chunk).length ≤ 4 * policy.maxAttempts
  /-- Nothing is sent of the chunks after the first that does not end settled. -/
  halted : ∀ chunk how, run.ends[chunk]? = some how → how ≠ .settled → ∀ post ∈ run.posts, post.chunk ≤ chunk
  /-- No request starts once the sink is closed or the caller has aborted. -/
  uninterrupted : ∀ post ∈ run.posts, ∀ moment, world.closed moment = true ∨ world.aborted moment = true →
    post.time < moment
  /-- A batch leads to a bounded number of requests. -/
  total : run.posts.length ≤ 4 * policy.maxAttempts * ((batch.length + 99) / 100)

theorem uninterrupted_before {world : World} {time moment : Nat} (free : world.interruption time = none)
    (stopped : world.closed moment = true ∨ world.aborted moment = true) : time < moment := by
  by_contra late
  unfold World.interruption at free
  split_ifs at free with closed aborted
  rcases stopped with before | before
  · exact closed (world.closed_stays (Nat.le_of_not_lt late) before)
  · exact aborted (world.aborted_stays (Nat.le_of_not_lt late) before)

/-- A body for each pass covers all calls of a chunk. -/
theorem bodies_of_passes {posts : List Post} (chunk : Nat) (passes : ∀ post ∈ posts, post.pass ≤ maxSalvagePasses)
    (same : ∀ post ∈ posts, ∀ other ∈ posts, post.chunk = other.chunk → post.pass = other.pass →
      post.body = other.body) :
    ∃ bodies : List (List LagoEvent), bodies.length ≤ 4 ∧ ∀ post ∈ posts, post.chunk = chunk → post.body ∈ bodies := by
  refine ⟨(List.range 4).filterMap fun pass =>
    (posts.find? fun post => post.chunk = chunk && post.pass = pass).map Post.body, ?_, ?_⟩
  · exact (List.length_filterMap_le _ _).trans (List.length_range (n := 4)).le
  · intro post member here
    have pass := passes post member
    cases found : posts.find? fun other => other.chunk = chunk && other.pass = post.pass with
    | none =>
      have absent := List.find?_eq_none.mp found post member
      simp [here] at absent
    | some other =>
      have matches_ := List.find?_some found
      simp only [Bool.and_eq_true, decide_eq_true_eq] at matches_
      refine List.mem_filterMap.mpr ⟨post.pass, List.mem_range.mpr (Nat.lt_succ_of_le pass), ?_⟩
      rw [found, Option.map_some]
      exact congrArg some (same other (List.mem_of_find?_eq_some found) post member
        (matches_.1.trans here.symm) matches_.2)

theorem disciplined_unsent (policy : RetryPolicy) (batch : List R) (result : BatchResult) :
    Disciplined world policy batch ⟨result, [], []⟩ := by
  constructor <;> simp
  exact ⟨[], by simp⟩

/-- Every delivery keeps to the discipline of its requests, whatever it is answered and
whenever it is interrupted. -/
theorem deliver_disciplined (encoder : Encoder R) (world : World) (policy : RetryPolicy) (readable : Bool)
    (batch : List R) : Disciplined world policy batch (deliver encoder world policy readable batch) := by
  unfold deliver
  split
  · exact disciplined_unsent _ _ _
  split
  · simp only
    have valid := preflight_valid encoder batch
    have ids := tallied_ids _ valid
    have positive : 0 < maxEventsPerRequest := by decide
    have whole := slices_flatten positive _
      (tallied (preflight encoder batch)).events (le_refl _)
    have distinct : (idsOf (slices maxEventsPerRequest (tallied (preflight encoder batch)).events.length
        (tallied (preflight encoder batch)).events).flatten).Nodup := by
      rw [whole, ids]
      exact valid.events
    obtain ⟨posts, ends, posts_eq, ends_eq, all⟩ := deliverChunks_posts world policy 0 _
      { tally := tallied (preflight encoder batch), time := 0 } distinct
    simp only [List.nil_append] at posts_eq ends_eq
    have slice : ∀ post ∈ posts, ∃ events ∈ slices maxEventsPerRequest
        (tallied (preflight encoder batch)).events.length (tallied (preflight encoder batch)).events,
        post.body.Sublist events := by
      intro post member
      obtain ⟨-, -, events, found, kept⟩ := all.body post member
      exact ⟨events, List.mem_of_getElem? found, kept⟩
    have inside : ∀ post ∈ posts, post.body.Sublist (tallied (preflight encoder batch)).events := by
      intro post member
      obtain ⟨events, found, kept⟩ := slice post member
      have part := List.sublist_flatten_of_mem found
      rw [whole] at part
      exact kept.trans part
    have room : batch.length ≥ (tallied (preflight encoder batch)).events.length := by
      have short := (preflight_ordered encoder batch).length_le
      rw [← ids, idsOf, List.length_map, List.length_map] at short
      exact short
    rw [posts_eq, ends_eq]
    constructor
    · intro post member
      obtain ⟨-, present, -⟩ := all.body post member
      obtain ⟨events, found, kept⟩ := slice post member
      exact ⟨List.length_pos_iff.mpr present, kept.length_le.trans (slices_length _ _ events found)⟩
    · intro post member
      have unique : (idsOf (tallied (preflight encoder batch)).events).Nodup := ids ▸ valid.events
      exact unique.sublist (idsOf_sublist (inside post member))
    · intro post member
      have order := preflight_ordered encoder batch
      rw [← ids] at order
      exact (idsOf_sublist (inside post member)).trans order
    · exact all.closing
    · exact all.same
    · exact fun chunk => bodies_of_passes chunk all.pass all.same
    · exact all.count
    · intro chunk how found unsettled post member
      by_contra later
      have settled := all.halted post member chunk (Nat.zero_le _) (Nat.lt_of_not_le later)
      rw [Nat.sub_zero, found] at settled
      exact unsettled (Option.some.inj settled)
    · exact fun post member moment stopped => uninterrupted_before (all.uninterrupted post member) stopped
    · have chunks := slices_count (tallied (preflight encoder batch)).events.length
        (tallied (preflight encoder batch)).events (le_refl _)
      refine all.total.trans ?_
      rw [chunks]
      exact Nat.mul_le_mul_left _ (Nat.div_le_div_right (Nat.add_le_add_right room 99))
  · exact disciplined_unsent _ _ _

end Audr.Lago
