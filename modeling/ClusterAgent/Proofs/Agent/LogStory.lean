/-
  ClusterAgent/Proofs/Agent/LogStory.lean
  =======================================
  **What the bridge of a log session has done.**

  Like that of a shell session, the bridge of a log session claims its identifier,
  dials, passes on every piece that it reads and gives the identifier up.  It can come
  to its end in five ways (`LogEnds`): it is stopped while it dials or while it reads,
  the stream cannot be opened, breaks, or ends by itself.  Only a failure is told, in
  one envelope after all the others (`chunked_of_logStory`).
-/
import ClusterAgent.Proofs.Agent.LogBridges
import ClusterAgent.Proofs.Agent.Story
import Mathlib.Data.List.Induction

namespace ClusterAgent.Agent

/-! ### The story of a log session -/

/-- What a bridge with a stream has done when it has read these pieces. -/
def following (id : String) (guard : Guard) (chunks : List (List UInt8)) : List Deed :=
  [.claim guard, .dial none] ++
    chunks.flatMap fun chunk => [.read chunk, .queue (Envelope.log id chunk)]

/-- What a bridge has done when it will queue nothing more and still holds its identifier.  It ends
    without a failure only where it was stopped or the stream has ended. -/
inductive LogEnds (id : String) (guard : Guard) (isStopped : Bool) : List Deed → Prop where
  | abandoned (told : isStopped = true) : LogEnds id guard isStopped [.claim guard]
  | missed (failure : Cluster.Failure) :
      LogEnds id guard isStopped [.claim guard, .dial (some failure),
        .queue (Envelope.log id failure.message.toUTF8.toList)]
  | stopped (chunks : List (List UInt8)) (full : ∀ chunk ∈ chunks, chunk ≠ [])
      (told : isStopped = true) : LogEnds id guard isStopped (following id guard chunks)
  | finished (chunks : List (List UInt8)) (full : ∀ chunk ∈ chunks, chunk ≠ []) :
      LogEnds id guard isStopped (following id guard chunks ++ [.finish .finished])
  | broke (chunks : List (List UInt8)) (full : ∀ chunk ∈ chunks, chunk ≠ []) (text : String) :
      LogEnds id guard isStopped (following id guard chunks ++
        [.finish (.failed text), .queue (Envelope.log id text.toUTF8.toList)])

/-- All that the bridge of a log session with this identifier has done when it has come that
    far. -/
def LogStory (id : String) (isStopped : Bool) : Phase → List Deed → Prop
  | .starting, deeds => deeds = []
  | .opening guard, deeds => deeds = [.claim guard]
  | .live guard, deeds =>
    ∃ chunks, (∀ chunk ∈ chunks, chunk ≠ []) ∧ deeds = following id guard chunks
  | .closing _ _, _ => False
  | .closed guard, deeds => LogEnds id guard isStopped deeds
  | .gone, deeds =>
    deeds = [.queue (Envelope.log id (refusal id))] ∨
    ∃ guard before, LogEnds id guard isStopped before ∧ deeds = before ++ [.release guard]

variable {id : String} {guard : Guard} {isStopped : Bool} {phase phase' : Phase}
  {deeds done : List Deed}

theorem logEnds_stopped (h : LogEnds id guard isStopped deeds) {later : Bool}
    (hstays : isStopped = true → later = true) : LogEnds id guard later deeds := by
  cases h with
  | abandoned told => exact .abandoned (hstays told)
  | missed failure => exact .missed failure
  | stopped chunks full told => exact .stopped chunks full (hstays told)
  | finished chunks full => exact .finished chunks full
  | broke chunks full text => exact .broke chunks full text

/-- Stopping a session does not change what its bridge has done. -/
theorem logStory_stopped (h : LogStory id isStopped phase deeds) {later : Bool}
    (hstays : isStopped = true → later = true) : LogStory id later phase deeds := by
  cases phase with
  | closed guard => exact logEnds_stopped h hstays
  | gone =>
    rcases h with hrefused | ⟨guard, before, hends, hdeeds⟩
    · exact .inl hrefused
    · exact .inr ⟨guard, before, logEnds_stopped hends hstays, hdeeds⟩
  | starting | opening _ | live _ | closing _ _ => exact h

theorem following_concat (id : String) (guard : Guard) (chunks : List (List UInt8))
    (chunk : List UInt8) :
    following id guard (chunks ++ [chunk]) =
      following id guard chunks ++ [.read chunk, .queue (Envelope.log id chunk)] := by
  simp [following]

theorem logStory_step {n : Nat} {table table' : SessionTable Nat} {unread unread' : List UInt8}
    (hstep : LogStep n id isStopped table phase unread deeds table' phase' unread')
    (hstory : LogStory id isStopped phase done) :
    LogStory id isStopped phase' (done ++ deeds) := by
  cases hstep with
  | stay =>
    rw [List.append_nil]
    exact hstory
  | refuse _ taken =>
    obtain rfl : done = [] := hstory
    exact .inl rfl
  | claim _ free =>
    obtain rfl : done = [] := hstory
    exact rfl
  | abandon guard _ told =>
    obtain rfl : done = [.claim guard] := hstory
    exact .abandoned told
  | miss guard _ failure =>
    obtain rfl : done = [.claim guard] := hstory
    exact .missed failure
  | dial guard _ =>
    obtain rfl : done = [.claim guard] := hstory
    exact ⟨[], by simp, rfl⟩
  | stop guard _ told =>
    obtain ⟨chunks, hfull, rfl⟩ := hstory
    rw [List.append_nil]
    exact .stopped chunks hfull told
  | read guard bytes _ hbytes =>
    obtain ⟨chunks, hfull, rfl⟩ := hstory
    refine ⟨chunks ++ [bytes], ?_, (following_concat id guard chunks bytes).symm⟩
    intro chunk hchunk
    rcases List.mem_append.mp hchunk with hold | hnew
    · exact hfull chunk hold
    · rw [List.mem_singleton] at hnew
      exact hnew ▸ hbytes
  | finish guard =>
    obtain ⟨chunks, hfull, rfl⟩ := hstory
    exact .finished chunks hfull
  | broke guard text =>
    obtain ⟨chunks, hfull, rfl⟩ := hstory
    exact .broke chunks hfull text
  | release guard _ _ ending =>
    rcases ending with rfl | ⟨last, rfl⟩
    · exact .inr ⟨guard, done, hstory, rfl⟩
    · exact hstory.elim

/-! ### What is read and what is queued -/

/-- The text of a failure that a bridge has met. -/
def Deed.failure? : Deed → Option (List UInt8)
  | .dial (some failure) => some failure.message.toUTF8.toList
  | .finish (.failed text) => some text.toUTF8.toList
  | _ => none

def failures (deeds : List Deed) : List (List UInt8) :=
  deeds.filterMap Deed.failure?

theorem failures_append (deeds more : List Deed) :
    failures (deeds ++ more) = failures deeds ++ failures more :=
  List.filterMap_append

theorem following_lists (id : String) (guard : Guard) (chunks : List (List UInt8)) :
    reads (following id guard chunks) = chunks ∧
      envelopes (following id guard chunks) = chunks.map (Envelope.log id) ∧
      failures (following id guard chunks) = [] := by
  induction chunks using List.reverseRecOn with
  | nil => exact ⟨rfl, rfl, rfl⟩
  | append_singleton chunks chunk ih =>
    obtain ⟨hreads, henvelopes, hfailures⟩ := ih
    rw [following_concat, reads_append, envelopes_append, failures_append, hreads, henvelopes,
      hfailures, List.map_append]
    exact ⟨rfl, rfl, rfl⟩

/-- What a bridge queues is what it reads, piece by piece and none of them empty, and then the text
    of its failure, if it has met one. -/
structure Chunked (id : String) (deeds : List Deed) : Prop where
  full : ∀ chunk ∈ reads deeds, chunk ≠ []
  envelopes : envelopes deeds = (reads deeds ++ failures deeds).map (Envelope.log id)
  failures : (failures deeds).length ≤ 1

/-- There is at most one failure, so the first one is all. -/
theorem Chunked.failures_eq (h : Chunked id deeds) :
    Agent.failures deeds = (deeds.findSome? Deed.failure?).toList := by
  have hlength := h.failures
  rw [← List.head?_filterMap]
  show Agent.failures deeds = (Agent.failures deeds).head?.toList
  rcases hfailures : Agent.failures deeds with _ | ⟨text, _ | ⟨more, rest⟩⟩
  · rfl
  · rfl
  · rw [hfailures] at hlength
    simp at hlength

theorem chunked_following {chunks : List (List UInt8)} (hfull : ∀ chunk ∈ chunks, chunk ≠ []) :
    Chunked id (following id guard chunks) := by
  obtain ⟨hreads, henvelopes, hfailures⟩ := following_lists id guard chunks
  constructor
  · rwa [hreads]
  · rw [hreads, henvelopes, hfailures, List.append_nil]
  · simp [hfailures]

/-- A bridge that reads nothing more queues at most the text of a failure. -/
theorem Chunked.append (h : Chunked id deeds) {last : List Deed} (hreads : reads last = [])
    (hlast : Agent.envelopes last = (Agent.failures last).map (Envelope.log id))
    (hlength : (Agent.failures deeds).length + (Agent.failures last).length ≤ 1) :
    Chunked id (deeds ++ last) := by
  constructor
  · rw [reads_append, hreads, List.append_nil]
    exact h.full
  · rw [reads_append, envelopes_append, failures_append, hreads, h.envelopes, hlast]
    simp
  · rwa [failures_append, List.length_append]

theorem chunked_of_logEnds (h : LogEnds id guard isStopped deeds) : Chunked id deeds := by
  cases h with
  | abandoned told => exact ⟨by simp [reads, Deed.read?], rfl, Nat.zero_le _⟩
  | missed failure => exact ⟨by simp [reads, Deed.read?], rfl, Nat.le_refl _⟩
  | stopped chunks full told => exact chunked_following full
  | finished chunks full =>
    refine (chunked_following full).append rfl rfl ?_
    rw [(following_lists id guard chunks).2.2]
    exact Nat.zero_le _
  | broke chunks full text =>
    refine (chunked_following full).append rfl rfl ?_
    rw [(following_lists id guard chunks).2.2]
    exact Nat.le_refl _

/-- A bridge that claimed its identifier queues what it reads, and then what it failed with. -/
theorem chunked_of_logStory (h : LogStory id isStopped phase deeds) (hclaim : .claim guard ∈ deeds) :
    Chunked id deeds := by
  cases phase with
  | starting =>
    obtain rfl : deeds = [] := h
    cases hclaim
  | opening own =>
    obtain rfl : deeds = [.claim own] := h
    exact ⟨by simp [reads, Deed.read?], rfl, Nat.zero_le _⟩
  | live own =>
    obtain ⟨chunks, hfull, rfl⟩ := h
    exact chunked_following hfull
  | closing own last => exact h.elim
  | closed own => exact chunked_of_logEnds h
  | gone =>
    rcases h with rfl | ⟨own, before, hends, rfl⟩
    · simp at hclaim
    · have hchunked := chunked_of_logEnds hends
      exact hchunked.append rfl rfl hchunked.failures

/-! ### Reading the story -/

theorem release_not_mem_of_logEnds (h : LogEnds id guard isStopped deeds) (other : Guard) :
    .release other ∉ deeds := by
  cases h <;> simp [following]

theorem claim_mem_of_logEnds (h : LogEnds id guard isStopped deeds) (other : Guard) :
    .claim other ∈ deeds ↔ other = guard := by
  cases h <;> simp [following]

/-- A phase holds a guard from its claim until its release. -/
theorem guard?_of_logStory (h : LogStory id isStopped phase deeds) (guard : Guard) :
    phase.guard? = some guard ↔ .claim guard ∈ deeds ∧ .release guard ∉ deeds := by
  cases phase with
  | starting =>
    obtain rfl : deeds = [] := h
    simp [Phase.guard?]
  | opening own =>
    obtain rfl : deeds = [.claim own] := h
    simp [Phase.guard?, eq_comm]
  | live own =>
    obtain ⟨chunks, -, rfl⟩ := h
    simp [Phase.guard?, following, eq_comm]
  | closing own last => exact h.elim
  | closed own =>
    simp [Phase.guard?, claim_mem_of_logEnds h, release_not_mem_of_logEnds h, eq_comm]
  | gone =>
    rcases h with rfl | ⟨own, before, hends, rfl⟩
    · simp [Phase.guard?]
    · simp [Phase.guard?, claim_mem_of_logEnds hends, release_not_mem_of_logEnds hends]

/-- A bridge that has tried to open its stream had claimed its identifier right before. -/
def Registered (deeds : List Deed) : Prop :=
  ∀ failure, .dial failure ∈ deeds → ∃ guard rest, deeds = .claim guard :: .dial failure :: rest

theorem Registered.append (h : Registered deeds) {last : List Deed}
    (hlast : ∀ failure, .dial failure ∉ last) : Registered (deeds ++ last) := by
  intro failure hdial
  rcases List.mem_append.mp hdial with hdial | hdial
  · obtain ⟨guard, rest, rfl⟩ := h failure hdial
    exact ⟨guard, rest ++ last, rfl⟩
  · exact absurd hdial (hlast failure)

theorem registered_following (id : String) (guard : Guard) (chunks : List (List UInt8)) :
    Registered (following id guard chunks) := by
  intro failure hdial
  obtain rfl : failure = none := by simpa [following] using hdial
  exact ⟨guard, _, rfl⟩

theorem registered_of_logEnds (h : LogEnds id guard isStopped deeds) : Registered deeds := by
  cases h with
  | abandoned told =>
    intro failure hdial
    simp at hdial
  | missed reason =>
    intro failure hdial
    obtain rfl : failure = some reason := by simpa using hdial
    exact ⟨guard, _, rfl⟩
  | stopped chunks full told => exact registered_following id guard chunks
  | finished chunks full => exact (registered_following id guard chunks).append (by simp)
  | broke chunks full text => exact (registered_following id guard chunks).append (by simp)

theorem registered_of_logStory (h : LogStory id isStopped phase deeds) : Registered deeds := by
  cases phase with
  | starting =>
    obtain rfl : deeds = [] := h
    exact fun failure hdial => by cases hdial
  | opening own =>
    obtain rfl : deeds = [.claim own] := h
    exact fun failure hdial => by simp at hdial
  | live own =>
    obtain ⟨chunks, -, rfl⟩ := h
    exact registered_following id own chunks
  | closing own last => exact h.elim
  | closed own => exact registered_of_logEnds h
  | gone =>
    rcases h with rfl | ⟨own, before, hends, rfl⟩
    · exact fun failure hdial => by simp at hdial
    · exact (registered_of_logEnds hends).append (by simp)

/-- A session that is gone has given up the identifier that it claimed, once and at last. -/
theorem released_of_logStory (h : LogStory id isStopped .gone deeds)
    (hclaim : .claim guard ∈ deeds) :
    ∃ before, LogEnds id guard isStopped before ∧ deeds = before ++ [.release guard] ∧
      ∀ other, .release other ∉ before := by
  rcases h with rfl | ⟨own, before, hends, rfl⟩
  · simp at hclaim
  · have hsame : guard = own := by
      have hbefore : .claim guard ∈ before := by simpa using hclaim
      exact (claim_mem_of_logEnds hends guard).mp hbefore
    subst hsame
    exact ⟨before, hends, rfl, release_not_mem_of_logEnds hends⟩

end ClusterAgent.Agent
