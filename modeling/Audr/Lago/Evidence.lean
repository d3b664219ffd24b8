import Audr.Lago.Sink

/-! What the answers to the calls of `fetch` say of the events they carried, and what one
request leaves of such evidence. -/

namespace Audr.Lago

variable {world : World}

/-- Lago answered `200` to a request that carried the event. -/
def Confirms (world : World) (post : Post) (id : String) : Prop :=
  (∃ body, world.settlement post.time = .response 200 body) ∧ id ∈ idsOf post.body

/-- The verdict of a `422` that can be trusted. -/
def verdictOf (world : World) (post : Post) : Option ValidationVerdict :=
  match world.settlement post.time with
  | .response status body => if status = 422 then parseValidationErrors body post.body.length else none
  | _ => none

/-- The ids of the events a verdict names only as held already, from a position on. -/
def heldIds (verdict : ValidationVerdict) (index : Nat) (events : List LagoEvent) : List String :=
  idsOf (((events.zipIdx index).filter fun entry =>
    verdict.refusal entry.2 = none ∧ entry.2 ∈ verdict.duplicates).map Prod.fst)

/-- The ids of the events a verdict names as invalid, from a position on. -/
def invalidIds (verdict : ValidationVerdict) (index : Nat) (events : List LagoEvent) : List String :=
  idsOf (((events.zipIdx index).filter fun entry => (verdict.refusal entry.2).isSome).map Prod.fst)

/-- A trusted `422` named the event only as an existing transaction. -/
def Held (world : World) (post : Post) (id : String) : Prop :=
  ∃ verdict, verdictOf world post = some verdict ∧ id ∈ heldIds verdict 0 post.body

/-- A trusted `422` named the event as invalid. -/
def Invalid (world : World) (post : Post) (id : String) : Prop :=
  ∃ verdict, verdictOf world post = some verdict ∧ id ∈ invalidIds verdict 0 post.body

/-- The request was refused for good: by its status, or by a `422` that cannot be trusted. -/
def Refused (world : World) (post : Post) : Prop :=
  ∃ status body, world.settlement post.time = .response status body ∧
    (classifyStatus status ∈ [.credential, .forbidden, .tooLarge, .permanent] ∨
      (status = 422 ∧ parseValidationErrors body post.body.length = none))

/-- Another attempt may follow the one that made the call. -/
def Retried (world : World) (post : Post) : Prop := ∃ detail reads, world.attempted post.time = .again detail reads

theorem classifyStatus_accepted {status : Nat} : classifyStatus status = .accepted ↔ status = 200 := by
  unfold classifyStatus
  split_ifs <;> simp_all

theorem classifyStatus_invalid {status : Nat} : classifyStatus status = .invalid ↔ status = 422 := by
  unfold classifyStatus
  split_ifs <;> simp_all
  omega

/-- What a retried call was answered says nothing of its events. -/
theorem Retried.silent {post : Post} (retried : Retried world post) :
    (∀ id, ¬ Confirms world post id) ∧ verdictOf world post = none ∧ ¬ Refused world post := by
  obtain ⟨detail, reads, again⟩ := retried
  have transient : ∀ status body, world.settlement post.time = .response status body →
      classifyStatus status = .transient := by
    intro status body answered
    unfold World.attempted at again
    rw [answered] at again
    simp only at again
    split at again
    · cases again
    · cases again
    · split_ifs at again
      · split at again <;> cases again
    · assumption
    all_goals cases again
  refine ⟨?_, ?_, ?_⟩
  · rintro id ⟨⟨body, answered⟩, -⟩
    have class200 := transient _ _ answered
    rw [classifyStatus_accepted.mpr rfl] at class200
    cases class200
  · unfold verdictOf
    split
    next status body answered =>
      have other := transient _ _ answered
      rw [if_neg]
      rintro rfl
      rw [classifyStatus_invalid.mpr rfl] at other
      cases other
    · rfl
  · rintro ⟨status, body, answered, permanent | ⟨rfl, -⟩⟩
    · rw [transient _ _ answered] at permanent
      simp at permanent
    · have other := transient _ _ answered
      rw [classifyStatus_invalid.mpr rfl] at other
      cases other

/-- An exchange that no answer of Lago decided. -/
def Exchange.Idle (exchange : Exchange) : Prop :=
  exchange = .raised ∨ exchange = .stopped .closed ∨ exchange = .stopped .aborted ∨
    ∃ detail, exchange = .stopped (.failed true detail)

/-- How a request ends: after answers that are retried, with one that is not, or idle. -/
inductive Concluded (world : World) : Exchange → List Post → Prop
  | idle {exchange : Exchange} {posts : List Post} (retried : ∀ post ∈ posts, Retried world post)
      (idle : exchange.Idle) : Concluded world exchange posts
  | ended {exchange : Exchange} {earlier : List Post} {last : Post}
      (retried : ∀ post ∈ earlier, Retried world post) (ends : world.attempted last.time = .ends exchange) :
      Concluded world exchange (earlier ++ [last])

theorem Concluded.cons {exchange : Exchange} {post : Post} {posts : List Post} (first : Retried world post)
    (concluded : Concluded world exchange posts) : Concluded world exchange (post :: posts) := by
  cases concluded with
  | idle retried idle => exact .idle (List.forall_mem_cons.mpr ⟨first, retried⟩) idle
  | @ended earlier last retried ends =>
    rw [← List.cons_append]
    exact .ended (List.forall_mem_cons.mpr ⟨first, retried⟩) ends

theorem interruption_idle {time : Nat} {stop : Stop} (found : world.interruption time = some stop) :
    (Exchange.stopped stop).Idle := by
  unfold World.interruption at found
  split_ifs at found <;> (cases found; simp [Exchange.Idle])

/-- What every call of `fetch` a request makes has in common. -/
structure Post.Of (world : World) (chunk pass : Nat) (events : List LagoEvent) (post : Post) : Prop where
  chunk : post.chunk = chunk
  pass : post.pass = pass
  body : post.body = events
  uninterrupted : world.interruption post.time = none

/-- One request: its calls, how many they are, when they are made, and how it ends. -/
structure Exchanged.Spec (world : World) (chunk pass : Nat) (events : List LagoEvent) (attempts time : Nat)
    (sent : Exchanged) : Prop where
  posts : ∀ post ∈ sent.posts, post.Of world chunk pass events
  count : sent.posts.length ≤ attempts
  times : ∀ post ∈ sent.posts, time ≤ post.time ∧ post.time < sent.time
  later : time ≤ sent.time
  concluded : Concluded world sent.exchange sent.posts

section Attempts

variable {chunk pass attempt attempts time : Nat} {events : List LagoEvent} {exchange : Exchange}

theorem spec_unsent (idle : exchange.Idle) :
    (⟨exchange, time + 3, []⟩ : Exchanged).Spec world chunk pass events attempts time := by
  refine ⟨?_, Nat.zero_le _, ?_, Nat.le_add_right _ _, .idle ?_ idle⟩
  · exact fun _ member => absurd member List.not_mem_nil
  · exact fun _ member => absurd member List.not_mem_nil
  · exact fun _ member => absurd member List.not_mem_nil

/-- An attempt that no other follows. -/
theorem spec_last (free : world.interruption time = none)
    (concluded : Concluded world exchange [⟨chunk, pass, attempt, time, events⟩]) :
    (⟨exchange, time + 3, [⟨chunk, pass, attempt, time, events⟩]⟩ : Exchanged).Spec world chunk pass events
      (attempts + 1) time := by
  refine ⟨?_, Nat.le_add_left _ _, ?_, Nat.le_add_right _ _, concluded⟩
  · rintro post member
    rw [List.mem_singleton.mp member]
    exact ⟨rfl, rfl, rfl, free⟩
  · rintro post member
    rw [List.mem_singleton.mp member]
    exact ⟨le_refl _, Nat.lt_add_of_pos_right (by omega)⟩

theorem exchangeFrom_spec (world : World) (chunk pass : Nat) (events : List LagoEvent) (attempt time left : Nat) :
    (exchangeFrom world chunk pass events attempt time left).Spec world chunk pass events (left + 1) time := by
  induction left generalizing attempt time with
  | zero =>
    unfold exchangeFrom
    split
    next stop found => exact spec_unsent (interruption_idle found)
    next free =>
      simp only
      split
      next exchange ends =>
        exact spec_last free (.ended (fun _ member => absurd member List.not_mem_nil) ends)
      next detail reads again =>
        refine spec_last free (.idle ?_ (by simp [Exchange.Idle]))
        rintro post member
        rw [List.mem_singleton.mp member]
        exact ⟨detail, reads, again⟩
  | succ left ih =>
    unfold exchangeFrom
    split
    next stop found => exact spec_unsent (interruption_idle found)
    next free =>
      simp only
      split
      next exchange ends =>
        exact spec_last free (.ended (fun _ member => absurd member List.not_mem_nil) ends)
      next detail reads again =>
        have retried : Retried world ⟨chunk, pass, attempt, time, events⟩ := ⟨detail, reads, again⟩
        have alone : ∀ post ∈ [(⟨chunk, pass, attempt, time, events⟩ : Post)], Retried world post := by
          rintro post member
          rw [List.mem_singleton.mp member]
          exact retried
        split
        · split
          next stop found => exact spec_last free (.idle alone (interruption_idle found))
          next calm =>
            have rest := ih (attempt + 1) (time + 3)
            refine ⟨?_, Nat.succ_le_succ rest.count, ?_, by have := rest.later; simp only; omega,
              rest.concluded.cons retried⟩
            · exact List.forall_mem_cons.mpr ⟨⟨rfl, rfl, rfl, free⟩, rest.posts⟩
            · have later := rest.later
              refine List.forall_mem_cons.mpr ⟨⟨le_refl _, by simp only; omega⟩, fun post member => ?_⟩
              have between := rest.times post member
              exact ⟨by omega, between.2⟩
        · exact spec_last free (.idle alone (.inl rfl))

end Attempts

theorem exchange_spec (world : World) (policy : RetryPolicy) (chunk pass : Nat) (events : List LagoEvent) (time : Nat) :
    (exchange world policy chunk pass events time).Spec world chunk pass events policy.maxAttempts time := by
  unfold exchange
  split
  · have spec := exchangeFrom_spec world chunk pass events 1 time (policy.maxAttempts - 1)
    have attempts := policy.attempts_pos
    rwa [Nat.sub_add_cancel attempts] at spec
  · exact spec_unsent (.inl rfl)

/-- What the answer that ends a request is, for each way it can end. -/
inductive Ending (world : World) (post : Post) : Exchange → Prop
  | accepted (body : Option (Json Double)) (answered : world.settlement post.time = .response 200 body) :
      Ending world post .accepted
  | invalid (body : Option (Json Double)) (answered : world.settlement post.time = .response 422 body) :
      Ending world post (.invalid body)
  | refused (status : Nat) (body : Option (Json Double)) (detail : String)
      (answered : world.settlement post.time = .response status body)
      (permanent : classifyStatus status ∈ [.credential, .forbidden, .tooLarge, .permanent]) :
      Ending world post (.stopped (.failed false detail))
  | silent (exchange : Exchange) (kind : exchange.Idle ∨ exchange = .stopped .unconfirmed)
      (unconfirmed : ∀ body, world.settlement post.time ≠ .response 200 body)
      (unread : ∀ body, world.settlement post.time = .response 422 body → body = none) : Ending world post exchange

theorem ending_of_ends {post : Post} {exchange : Exchange} (ends : world.attempted post.time = .ends exchange) :
    Ending world post exchange := by
  unfold World.attempted at ends
  split at ends
  next unusable =>
    cases ends
    exact .silent _ (.inl (.inl rfl)) (by simp [unusable]) (by simp [unusable])
  · cases ends
  next name rejected =>
    split at ends
    next stop found =>
      cases ends
      exact .silent _ (.inl (interruption_idle found)) (by simp [rejected]) (by simp [rejected])
    · cases ends
  next status body answered =>
    split at ends
    next accepted =>
      cases ends
      rw [classifyStatus_accepted.mp accepted] at answered
      exact .accepted body answered
    next unconfirmed =>
      cases ends
      refine .silent _ (.inr rfl) ?_ ?_ <;>
        (intro other same; rw [answered] at same; cases same; simp [classifyStatus] at unconfirmed)
    next invalid =>
      rw [classifyStatus_invalid.mp invalid] at answered
      split at ends
      next unread =>
        split at ends
        next stop found =>
          cases ends
          refine .silent _ (.inl (interruption_idle found)) (by simp [answered]) ?_
          intro other same
          rw [answered] at same
          cases same
          exact unread
        · cases ends
          exact .invalid body answered
      · cases ends
        exact .invalid body answered
    · cases ends
    all_goals
      next failed =>
        cases ends
        exact .refused status body _ answered (by simp [failed])

theorem Concluded.inv {exchange : Exchange} {posts : List Post} (concluded : Concluded world exchange posts) :
    ((∀ post ∈ posts, Retried world post) ∧ exchange.Idle) ∨
      ∃ earlier last, posts = earlier ++ [last] ∧ (∀ post ∈ earlier, Retried world post) ∧
        Ending world last exchange := by
  cases concluded with
  | idle retried idle => exact .inl ⟨retried, idle⟩
  | ended retried ends => exact .inr ⟨_, _, rfl, retried, ending_of_ends ends⟩

/-- A request that ends with a `422` ends with the call it answered. -/
theorem Concluded.invalid {body : Option (Json Double)} {posts : List Post}
    (concluded : Concluded world (.invalid body) posts) :
    ∃ earlier last, posts = earlier ++ [last] ∧ (∀ post ∈ earlier, Retried world post) ∧
      world.settlement last.time = .response 422 body := by
  rcases concluded.inv with ⟨-, idle⟩ | ⟨earlier, last, split, retried, ending⟩
  · simp [Exchange.Idle] at idle
  · refine ⟨earlier, last, split, retried, ?_⟩
    cases ending with
    | invalid body answered => exact answered
    | silent exchange kind => simp [Exchange.Idle] at kind

theorem Concluded.accepted {posts : List Post} (concluded : Concluded world .accepted posts) :
    ∃ earlier last body, posts = earlier ++ [last] ∧ (∀ post ∈ earlier, Retried world post) ∧
      world.settlement last.time = .response 200 body := by
  rcases concluded.inv with ⟨-, idle⟩ | ⟨earlier, last, split, retried, ending⟩
  · simp [Exchange.Idle] at idle
  · cases ending with
    | accepted body answered => exact ⟨earlier, last, body, split, retried, answered⟩
    | silent exchange kind => simp [Exchange.Idle] at kind

/-- What the answer that ends a request says of its events. -/
theorem Ending.silent_of {post : Post} {exchange : Exchange} (ending : Ending world post exchange)
    (other : exchange ≠ .accepted) (unread : ∀ body, exchange ≠ .invalid body) :
    (∀ id, ¬ Confirms world post id) ∧ verdictOf world post = none := by
  cases ending with
  | accepted body answered => exact absurd rfl other
  | invalid body answered => exact absurd rfl (unread body)
  | refused status body detail answered permanent =>
    have ne200 : status ≠ 200 := by
      rintro rfl
      simp [classifyStatus] at permanent
    have ne422 : status ≠ 422 := by
      rintro rfl
      simp [classifyStatus] at permanent
    constructor
    · rintro id ⟨⟨text, same⟩, -⟩
      rw [answered] at same
      cases same
      exact ne200 rfl
    · simp [verdictOf, answered, ne422]
  | silent _ kind unconfirmed noBody =>
    constructor
    · rintro id ⟨⟨text, same⟩, -⟩
      exact unconfirmed text same
    · unfold verdictOf
      split
      next status body answered =>
        split
        next invalid =>
          rw [invalid] at answered
          rw [noBody body answered]
          rfl
        · rfl
      · rfl

theorem verdictOf_invalid {post : Post} {body : Option (Json Double)}
    (answered : world.settlement post.time = .response 422 body) :
    (∀ id, ¬ Confirms world post id) ∧ verdictOf world post = parseValidationErrors body post.body.length := by
  constructor
  · rintro id ⟨⟨text, same⟩, -⟩
    rw [answered] at same
    cases same
  · simp [verdictOf, answered]

/-- A call whose answer gives the event an outcome. -/
def Closes (world : World) (post : Post) (id : String) : Prop :=
  id ∈ idsOf post.body ∧ (Confirms world post id ∨ Held world post id ∨ Invalid world post id ∨ Refused world post)

theorem Retried.closes_nothing {post : Post} (retried : Retried world post) (id : String) :
    ¬ Closes world post id := by
  obtain ⟨unconfirmed, unread, unrefused⟩ := retried.silent
  rintro ⟨-, confirmed | ⟨verdict, read, -⟩ | ⟨verdict, read, -⟩ | refused⟩
  · exact unconfirmed id confirmed
  · rw [unread] at read
    cases read
  · rw [unread] at read
    cases read
  · exact unrefused refused

/-- No call of a request but its last gives an event an outcome. -/
theorem Concluded.closing {exchange : Exchange} {posts : List Post} (concluded : Concluded world exchange posts) :
    posts.Pairwise fun post later => ∀ id, Closes world post id → id ∉ idsOf later.body := by
  cases concluded with
  | idle retried idle =>
    refine List.pairwise_of_forall_mem_list fun post member later _ id closes => ?_
    exact absurd closes ((retried post member).closes_nothing id)
  | ended retried ends =>
    refine List.pairwise_append.mpr ⟨?_, List.pairwise_singleton _ _, ?_⟩
    · refine List.pairwise_of_forall_mem_list fun post member later _ id closes => ?_
      exact absurd closes ((retried post member).closes_nothing id)
    · intro post member later _ id closes
      exact absurd closes ((retried post member).closes_nothing id)

section Naming

variable {verdict : ValidationVerdict} {index : Nat} {event : LagoEvent} {rest : List LagoEvent}

theorem idsOf_cons (event : LagoEvent) (rest : List LagoEvent) :
    idsOf (event :: rest) = event.transactionId :: idsOf rest := rfl

theorem invalidIds_cons : invalidIds verdict index (event :: rest) =
    (if (verdict.refusal index).isSome then [event.transactionId] else []) ++ invalidIds verdict (index + 1) rest := by
  unfold invalidIds
  rw [List.zipIdx_cons, List.filter_cons]
  split <;> rfl

theorem heldIds_cons : heldIds verdict index (event :: rest) =
    (if verdict.refusal index = none ∧ index ∈ verdict.duplicates then [event.transactionId] else []) ++
      heldIds verdict (index + 1) rest := by
  unfold heldIds
  rw [List.zipIdx_cons, List.filter_cons]
  simp only [decide_eq_true_eq]
  split <;> rfl

end Naming

/-- What the loop over the events of an answered request does: it rejects the invalid ones,
confirms those that are held, keeps the others, and touches nothing else. -/
structure Settled (verdict : ValidationVerdict) (index : Nat) (pending : List LagoEvent) (tally after : Tally)
    (survivors : List LagoEvent) : Prop where
  events : after.events = tally.events
  refused : after.refused = tally.refused
  stop : after.stop = tally.stop
  rejected : ∃ named, after.rejected = tally.rejected ++ named ∧ named.map Prod.fst = invalidIds verdict index pending
  settled : after.settled.Perm (tally.settled ++ (invalidIds verdict index pending ++ heldIds verdict index pending))
  confirmed : after.confirmed = tally.confirmed + (heldIds verdict index pending).length
  kept : survivors.Sublist pending
  divided : (idsOf pending).Perm
    (invalidIds verdict index pending ++ heldIds verdict index pending ++ idsOf survivors)

theorem settleNamed_settled (verdict : ValidationVerdict) (index : Nat) (pending : List LagoEvent) (tally : Tally) :
    Settled verdict index pending tally (settleNamed verdict index pending tally).1
      (settleNamed verdict index pending tally).2 := by
  induction pending generalizing index tally with
  | nil => constructor <;> simp [settleNamed, invalidIds, heldIds, idsOf]
  | cons event rest ih =>
    unfold settleNamed
    cases refusal : verdict.refusal index with
    | some detail =>
      simp only
      have later := ih (index + 1) (tally.reject event.transactionId detail)
      have invalid : invalidIds verdict index (event :: rest) =
          event.transactionId :: invalidIds verdict (index + 1) rest := by
        rw [invalidIds_cons, refusal]
        rfl
      have held : heldIds verdict index (event :: rest) = heldIds verdict (index + 1) rest := by
        rw [heldIds_cons, refusal]
        simp
      constructor
      · exact later.events
      · exact later.refused
      · exact later.stop
      · obtain ⟨named, all, ids⟩ := later.rejected
        refine ⟨(event.transactionId, some detail) :: named, ?_, ?_⟩
        · rw [all]
          simp [Tally.reject]
        · rw [invalid, ← ids]
          rfl
      · rw [invalid, held]
        simpa [Tally.reject] using later.settled
      · rw [held, later.confirmed]
        rfl
      · exact later.kept.cons _
      · rw [idsOf_cons, invalid, held]
        exact later.divided.cons _
    | none =>
      have invalid : invalidIds verdict index (event :: rest) = invalidIds verdict (index + 1) rest := by
        rw [invalidIds_cons, refusal]
        rfl
      simp only
      split
      next duplicate =>
        have later := ih (index + 1) (tally.confirm [event])
        have held : heldIds verdict index (event :: rest) =
            event.transactionId :: heldIds verdict (index + 1) rest := by
          rw [heldIds_cons, if_pos ⟨refusal, duplicate⟩]
          rfl
        constructor
        · exact later.events
        · exact later.refused
        · exact later.stop
        · rw [invalid]
          exact later.rejected
        · rw [invalid, held]
          refine later.settled.trans ?_
          simp only [Tally.confirm, idsOf, List.map_cons, List.map_nil, List.append_assoc, List.singleton_append]
          exact List.perm_middle.symm.append_left _
        · rw [held, later.confirmed]
          simp only [Tally.confirm, List.length_cons, List.length_nil]
          omega
        · exact later.kept.cons _
        · rw [idsOf_cons, invalid, held]
          refine (later.divided.cons _).trans ?_
          rw [List.append_assoc, List.append_assoc]
          exact List.perm_middle.symm
      next fresh =>
        have later := ih (index + 1) tally
        have held : heldIds verdict index (event :: rest) = heldIds verdict (index + 1) rest := by
          rw [heldIds_cons, if_neg fun both => fresh both.2]
          rfl
        constructor
        · exact later.events
        · exact later.refused
        · exact later.stop
        · rw [invalid]
          exact later.rejected
        · rw [invalid, held]
          exact later.settled
        · rw [held]
          exact later.confirmed
        · exact later.kept.cons_cons _
        · rw [idsOf_cons, idsOf_cons, invalid, held]
          exact (later.divided.cons _).trans List.perm_middle.symm

/-- Events a trusted `422` names are not sent again. -/
theorem Settled.apart {verdict : ValidationVerdict} {pending survivors : List LagoEvent} {tally after : Tally}
    (settled : Settled verdict 0 pending tally after survivors) (distinct : (idsOf pending).Nodup) {id : String}
    (named : id ∈ invalidIds verdict 0 pending ∨ id ∈ heldIds verdict 0 pending) : id ∉ idsOf survivors := by
  have divided := (settled.divided.nodup_iff.mp distinct)
  exact fun member => (List.disjoint_of_nodup_append divided) (List.mem_append.mpr named) member

theorem afterExchange_again {salvaged : Nat} {pending survivors : List LagoEvent} {tally after : Tally}
    {exchange : Exchange} (again : afterExchange salvaged pending tally exchange = .again after survivors) :
    salvaged ≠ maxSalvagePasses ∧ ∃ body verdict, exchange = .invalid body ∧
      parseValidationErrors body pending.length = some verdict ∧
      Settled verdict 0 pending tally after survivors := by
  unfold afterExchange at again
  split at again
  · cases again
  next body =>
    split_ifs at again with large last
    split at again
    · cases again
    next verdict trusted =>
      cases again
      exact ⟨last, body, verdict, rfl, trusted, settleNamed_settled _ _ _ _⟩
  · split at again <;> cases again
  · cases again

theorem deliverChunks_halted {policy : RetryPolicy} (chunk : Nat) (chunks : List (List LagoEvent)) {progress : Progress}
    (halted : progress.tally.stop.isSome = true) : deliverChunks world policy chunk chunks progress = progress := by
  cases chunks with
  | nil => rfl
  | cons events rest =>
    unfold deliverChunks
    rw [if_pos halted]

theorem halt_isSome (tally : Tally) (stop : Stop) : (tally.halt stop).stop.isSome = true := by
  cases before : tally.stop <;> simp [Tally.halt, before]

theorem tallied_ids (found : Preflight) (valid : found.Valid) :
    idsOf (tallied found).events = OrderedMap.keys found.events := by
  simp only [tallied, idsOf, OrderedMap.keys, List.map_map]
  exact List.map_congr_left fun entry member => valid.identified entry member

section Slices

variable {α : Type} {size : Nat}

theorem slices_flatten (positive : 0 < size) (fuel : Nat) (items : List α) (enough : items.length ≤ fuel) :
    (slices size fuel items).flatten = items := by
  induction fuel generalizing items with
  | zero => rw [List.length_eq_zero_iff.mp (Nat.le_zero.mp enough)]; rfl
  | succ fuel ih =>
    cases items with
    | nil => rfl
    | cons item rest =>
      have shorter : ((item :: rest).drop size).length ≤ fuel := by
        rw [List.length_drop]
        simp only [List.length_cons] at enough ⊢
        omega
      rw [slices, List.flatten_cons, ih _ shorter, List.take_append_drop]
      exact fun empty => absurd empty (List.cons_ne_nil _ _)

theorem slices_length (fuel : Nat) (items : List α) : ∀ slice ∈ slices size fuel items, slice.length ≤ size := by
  induction fuel generalizing items with
  | zero => exact fun _ member => absurd member List.not_mem_nil
  | succ fuel ih =>
    cases items with
    | nil => exact fun _ member => absurd member List.not_mem_nil
    | cons item rest =>
      intro slice member
      rw [slices] at member
      · rcases List.mem_cons.mp member with rfl | later
        · exact List.length_take_le _ _
        · exact ih _ slice later
      · exact fun empty => absurd empty (List.cons_ne_nil _ _)

/-- How many requests a batch takes, if no `422` narrows one. -/
theorem slices_count (fuel : Nat) (items : List α) (enough : items.length ≤ fuel) :
    (slices maxEventsPerRequest fuel items).length = (items.length + 99) / 100 := by
  induction fuel generalizing items with
  | zero =>
    rw [List.length_eq_zero_iff.mp (Nat.le_zero.mp enough)]
    simp [slices]
  | succ fuel ih =>
    cases items with
    | nil => simp [slices]
    | cons item rest =>
      rw [slices]
      · have shorter : ((item :: rest).drop maxEventsPerRequest).length ≤ fuel := by
          rw [List.length_drop, maxEventsPerRequest]
          simp only [List.length_cons] at enough ⊢
          omega
        rw [List.length_cons, ih _ shorter, List.length_drop, maxEventsPerRequest]
        simp only [List.length_cons]
        omega
      · exact fun empty => absurd empty (List.cons_ne_nil _ _)

end Slices

end Audr.Lago
