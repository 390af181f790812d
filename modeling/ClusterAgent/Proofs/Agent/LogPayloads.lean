/-
  ClusterAgent/Proofs/Agent/LogPayloads.lean
  ==========================================
  **What the envelopes of a log session carry.**

  The stream of a session is that of a run of the cluster tool (`Follows`): the attempt
  to open it meets what the first read of the output tells, and then it gives this read
  again and the rest.  A session that ends by itself has queued all bytes of the output,
  in order and none of them twice, or one text that tells why there was no stream.
-/
import ClusterAgent.Proofs.Agent.LogLifecycle
import ClusterAgent.Proofs.Cluster.Following

namespace ClusterAgent.Agent

open Cluster (LogRun Opening)

variable {σ : Type} {id : String} {isStopped : Bool} {phase : Phase} {deeds : List Deed}

/-! ### Sessions that end by themselves -/

/-- The bridge has met a failure or the end of its stream before anybody stopped it. -/
def EndedByItself (deeds : List Deed) : Prop :=
  (∃ ending, .finish ending ∈ deeds) ∨ ∃ failure, .dial (some failure) ∈ deeds

theorem logEnds_of_logStory (h : LogStory id isStopped phase deeds) (hended : EndedByItself deeds) :
    ∃ guard before, LogEnds id guard isStopped before ∧
      (deeds = before ∨ deeds = before ++ [.release guard]) := by
  cases phase with
  | starting =>
    obtain rfl : deeds = [] := h
    simp [EndedByItself] at hended
  | opening own =>
    obtain rfl : deeds = [.claim own] := h
    simp [EndedByItself] at hended
  | live own =>
    obtain ⟨chunks, -, rfl⟩ := h
    simp [EndedByItself, following] at hended
  | closing own last => exact h.elim
  | closed own => exact ⟨own, deeds, h, .inl rfl⟩
  | gone =>
    rcases h with rfl | ⟨own, before, hends, rfl⟩
    · simp [EndedByItself] at hended
    · exact ⟨own, before, hends, .inr rfl⟩

/-- A bridge that ended by itself has no stream and told why, or it has read its stream to the end
    and queued what it read, and then the failure if there was one. -/
theorem story_of_endedByItself (h : LogStory id isStopped phase deeds)
    (hended : EndedByItself deeds) :
    (∃ failure, .dial (some failure) ∈ deeds ∧
        envelopes deeds = [Envelope.log id failure.message.toUTF8.toList]) ∨
      .dial none ∈ deeds ∧ (.finish .finished ∈ deeds ∧
          envelopes deeds = (reads deeds).map (Envelope.log id) ∨
        ∃ text, .finish (.failed text) ∈ deeds) := by
  obtain ⟨guard, before, hends, hdeeds⟩ := logEnds_of_logStory h hended
  have hsame : envelopes deeds = envelopes before ∧ reads deeds = reads before := by
    rcases hdeeds with rfl | rfl
    · exact ⟨rfl, rfl⟩
    · rw [envelopes_append, reads_append]
      exact ⟨List.append_nil _, List.append_nil _⟩
  have hmem : ∀ deed ∈ before, deed ∈ deeds := by
    rcases hdeeds with rfl | rfl
    · exact fun _ h => h
    · exact fun _ h => List.mem_append_left _ h
  rw [hsame.1, hsame.2]
  cases hends with
  | abandoned _ | stopped =>
    exfalso
    rcases hdeeds with rfl | rfl <;> simp [EndedByItself, following] at hended
  | missed failure => exact .inl ⟨failure, hmem _ (by simp), rfl⟩
  | finished chunks _ =>
    obtain ⟨hreads, henvelopes, -⟩ := following_lists id guard chunks
    refine .inr ⟨hmem _ (by simp [following]), .inl ⟨hmem _ (by simp), ?_⟩⟩
    rw [envelopes_append, reads_append, henvelopes, hreads, List.map_append]
    rfl
  | broke chunks _ text =>
    exact .inr ⟨hmem _ (by simp [following]), .inr ⟨text, hmem _ (by simp)⟩⟩

/-! ### The stream of a run -/

/-- What a bridge meets that opens the log of a run, once it meets anything. -/
def answer? : Opening → Option (Option Cluster.Failure)
  | .waiting => none
  | .failed failure => some (some failure)
  | .opened _ => some none

/-- The stream of a session is that of a run of the tool: what the attempt to open it met, what was
    written to it, and whether it ended are all the run's. -/
structure Follows (w : World σ) (n : Nat) (r : LogRun) : Prop where
  dialed : ∀ result, .dial result ∈ w.deedsOf (.log n) → answer? r.opening = some result
  written : ∀ stream, r.opening = .opened stream → ∃ sizes, (∀ size ∈ sizes, 0 < size) ∧
    w.writtenTo (.log n) = (stream.readAll sizes).pieces.flatten ∧
      ∀ ending, .finish ending ∈ w.deedsOf (.log n) →
        (stream.readAll sizes).ending = some ending

/-- What opening and following the log of a run come to. -/
structure LogSurvives (r : LogRun) : Prop where
  /-- The first read does not say anything before the tool writes or ends. -/
  waiting : r.opening = .waiting ↔ r.bytes = [] ∧ r.stdout.ending = none
  /-- The open fails just where the tool fails without any output, with what the tool tells. -/
  failed : ∀ failure, r.opening = .failed failure ↔
    r.bytes = [] ∧ r.stdout.ending = some .finished ∧ r.status ≠ 0 ∧
      failure = Cluster.Failure.classify r.status r.stderr
  /-- A run that succeeds without any output has an empty log. -/
  empty : r.bytes = [] → r.stdout.ending = some .finished → r.status = 0 →
    ∃ stream, r.opening = .opened stream ∧
      ∀ size, 0 < size → stream.readInto size = .ended .finished
  /-- Any output opens a stream, whatever the status will be. -/
  opened : r.bytes ≠ [] → ∃ stream, r.opening = .opened stream
  /-- Whatever buffers a stream is read into, it gives the bytes of the output in order, none twice;
      it ends after all of them, and it is read to its end by as many reads as there are bytes and
      one more. -/
  stream : ∀ stream, r.opening = .opened stream → ∀ sizes, (∀ size ∈ sizes, 0 < size) →
    let c := stream.readAll sizes
    c.pieces.flatten ++ c.left.bytes = r.bytes ∧ (∀ piece ∈ c.pieces, piece ≠ []) ∧
      (∀ ending, c.ending = some ending → ending = .finished ∧ c.pieces.flatten = r.bytes) ∧
      (r.bytes.length < sizes.length →
        c.pieces.flatten = r.bytes ∧ c.ending = r.stdout.ending)
  /-- The bridge of a session that nobody stops passes on all of it, and is over when the output
      has ended. -/
  bridge : ∀ stream, r.opening = .opened stream →
    let run := Session.Log.pump false stream.source
    run.chunks.flatten = r.bytes ∧ (∀ chunk ∈ run.chunks, chunk ≠ []) ∧
      (run.isOver = true ↔ r.stdout.ending = some .finished)
  /-- Whatever happens around a session: if it has ended by itself, its envelopes carry all bytes of
      the output in order, or there is one that carries the text of the failure. -/
  session : ∀ {σ : Type} (registry : Registry Handler) (client : Cluster.Client σ) (cluster : σ)
    (capacity tail : Nat) (moves : List (Move σ)) (n : Nat) (l : Log),
    let w := (World.start registry client cluster capacity tail).run moves
    w.agent.logs[n]? = some l → Follows w n r → EndedByItself (w.deedsOf (.log n)) →
    (∃ chunks : List (List UInt8), envelopes (w.deedsOf (.log n)) = chunks.map (Envelope.log l.id) ∧
        (envelopes (w.deedsOf (.log n))).map Envelope.chunkBytes? = chunks.map some ∧
        chunks.flatten = r.bytes) ∨
      ∃ failure, r.opening = .failed failure ∧
        envelopes (w.deedsOf (.log n)) = [Envelope.log l.id failure.message.toUTF8.toList]

section

variable {r : LogRun}

theorem opening_eq_failed_iff (hfine : r.ReadsWell) (failure : Cluster.Failure) :
    r.opening = .failed failure ↔ r.bytes = [] ∧ r.stdout.ending = some .finished ∧ r.status ≠ 0 ∧
      failure = Cluster.Failure.classify r.status r.stderr := by
  constructor
  · intro h
    cases LogRun.opens_of_eq hfine h with
    | failed hempty hover hstatus => exact ⟨hempty, hover, hstatus, rfl⟩
  · rintro ⟨hempty, hover, hstatus, rfl⟩
    have hopens := LogRun.opens_opening hfine
    cases hopening : r.opening <;> rw [hopening] at hopens <;> cases hopens
    case waiting _ hgoing => cases hgoing.symm.trans hover
    case failed => rfl
    case opened stream haccepted _ _ =>
      rcases haccepted with hsome | ⟨-, hzero⟩
      · exact absurd hempty hsome
      · exact absurd hzero hstatus

theorem opening_eq_waiting_iff (hfine : r.ReadsWell) :
    r.opening = .waiting ↔ r.bytes = [] ∧ r.stdout.ending = none := by
  constructor
  · intro h
    cases LogRun.opens_of_eq hfine h with
    | waiting hempty hgoing => exact ⟨hempty, hgoing⟩
  · rintro ⟨hempty, hgoing⟩
    have hopens := LogRun.opens_opening hfine
    cases hopening : r.opening <;> rw [hopening] at hopens <;> cases hopens
    case failed _ hover _ => cases hgoing.symm.trans hover
    case opened stream haccepted _ _ =>
      rcases haccepted with hsome | ⟨hover, -⟩
      · exact absurd hempty hsome
      · cases hgoing.symm.trans hover

theorem exists_stream (hfine : r.ReadsWell)
    (haccepted : r.bytes ≠ [] ∨ r.stdout.ending = some .finished ∧ r.status = 0) :
    ∃ stream, r.opening = .opened stream := by
  cases hopening : r.opening with
  | opened stream => exact ⟨stream, rfl⟩
  | waiting =>
    obtain ⟨hempty, hgoing⟩ := (opening_eq_waiting_iff hfine).mp hopening
    rcases haccepted with hsome | ⟨hover, -⟩
    · exact absurd hempty hsome
    · cases hgoing.symm.trans hover
  | failed failure =>
    obtain ⟨hempty, -, hstatus, -⟩ := (opening_eq_failed_iff hfine failure).mp hopening
    rcases haccepted with hsome | ⟨-, hzero⟩
    · exact absurd hempty hsome
    · exact absurd hzero hstatus

theorem bytes_of_opened (hfine : r.ReadsWell) {stream : Session.Replay}
    (h : r.opening = .opened stream) :
    stream.bytes = r.bytes ∧ stream.rest.ending = r.stdout.ending := by
  cases LogRun.opens_of_eq hfine h with
  | opened _ _ hsame hending => exact ⟨hsame, hending⟩

/-- A stream that has ended was read to its end. -/
theorem readAll_of_ended (hfine : r.ReadsWell) {stream : Session.Replay}
    (h : r.opening = .opened stream) {sizes : List Nat} (hsizes : ∀ size ∈ sizes, 0 < size)
    {ending : Session.Ending} (hended : (stream.readAll sizes).ending = some ending) :
    ending = .finished ∧ (stream.readAll sizes).pieces.flatten = r.bytes := by
  obtain ⟨hsame, hending⟩ := bytes_of_opened hfine h
  obtain ⟨hall, -, hover⟩ := stream.readAll_bytes hsizes
  obtain ⟨hempty, hlast⟩ := hover ending hended
  rw [hempty, List.append_nil] at hall
  refine ⟨?_, hall.trans hsame⟩
  cases ending with
  | finished => rfl
  | failed text => exact absurd (hending.symm.trans hlast) (hfine text)

/-- The stream of a run that has ended without output has ended. -/
theorem readInto_of_empty (hfine : r.ReadsWell) {stream : Session.Replay}
    (h : r.opening = .opened stream) (hempty : r.bytes = [])
    (hover : r.stdout.ending = some .finished) {size : Nat} (hsize : 0 < size) :
    stream.readInto size = .ended .finished := by
  obtain ⟨hsame, hending⟩ := bytes_of_opened hfine h
  have hgives := stream.gives_readInto hsize
  cases hgiven : stream.readInto size <;> rw [hgiven] at hgives <;> cases hgives
  case bytes piece left hfull _ _ horder =>
    rw [hsame, hempty] at horder
    exact absurd (List.append_eq_nil_iff.mp horder).1 hfull
  case ended ending _ hlast =>
    rw [hending, hover] at hlast
    rw [Option.some.inj hlast]
  case nothing _ hgoing =>
    rw [hending, hover] at hgoing
    cases hgoing

/-- A session that follows a run and has ended by itself has queued all of the output, or why there
    was none. -/
theorem payloads_of_follows (hfine : r.ReadsWell) {w : World σ} {n : Nat} {l : Log}
    (hknown : LogKnown w n l) (hfollows : Follows w n r)
    (hended : EndedByItself (w.deedsOf (.log n))) :
    (∃ chunks : List (List UInt8), envelopes (w.deedsOf (.log n)) = chunks.map (Envelope.log l.id) ∧
        (envelopes (w.deedsOf (.log n))).map Envelope.chunkBytes? = chunks.map some ∧
        chunks.flatten = r.bytes) ∨
      ∃ failure, r.opening = .failed failure ∧
        envelopes (w.deedsOf (.log n)) = [Envelope.log l.id failure.message.toUTF8.toList] := by
  rcases story_of_endedByItself hknown.story hended with ⟨failure, hdial, htold⟩ | ⟨hdial, hends⟩
  · have hmet := hfollows.dialed _ hdial
    cases hopening : r.opening with
    | failed met =>
      rw [hopening] at hmet
      obtain rfl : met = failure := by simpa [answer?] using hmet
      exact .inr ⟨met, rfl, htold⟩
    | waiting | opened => simp [hopening, answer?] at hmet
  · have hmet := hfollows.dialed _ hdial
    cases hopening : r.opening with
    | waiting | failed => simp [hopening, answer?] at hmet
    | opened stream =>
      obtain ⟨sizes, hsizes, hwritten, hfinish⟩ := hfollows.written stream hopening
      rcases hends with ⟨hlast, htold⟩ | ⟨text, hlast⟩
      · obtain ⟨-, hall⟩ := readAll_of_ended hfine hopening hsizes (hfinish _ hlast)
        have hbytes := hknown.bytes
        rw [hknown.drained _ hlast, List.append_nil, hwritten, hall] at hbytes
        refine .inl ⟨_, htold, ?_, hbytes⟩
        rw [htold, List.map_map]
        exact List.map_congr_left fun chunk _ => Envelope.chunkBytes?_chunk _ _ chunk
      · obtain ⟨hfinished, -⟩ := readAll_of_ended hfine hopening hsizes (hfinish _ hlast)
        cases hfinished

end

/-- **The first read of a log loses nothing and repeats nothing**, whatever the output of the tool is
    cut into, whatever buffers it is read into, and whatever status the tool ends with. -/
theorem log_survives_first_read (r : LogRun) (hfine : r.ReadsWell) : LogSurvives r := by
  constructor
  case waiting => exact opening_eq_waiting_iff hfine
  case failed => exact opening_eq_failed_iff hfine
  case empty =>
    intro hempty hover hstatus
    obtain ⟨stream, hopening⟩ := exists_stream hfine (.inr ⟨hover, hstatus⟩)
    exact ⟨stream, hopening, fun _ => readInto_of_empty hfine hopening hempty hover⟩
  case opened => exact fun hsome => exists_stream hfine (.inl hsome)
  case stream =>
    intro stream hopening sizes hsizes
    obtain ⟨hsame, hending⟩ := bytes_of_opened hfine hopening
    obtain ⟨hall, hfull, -⟩ := stream.readAll_bytes hsizes
    refine ⟨hall.trans hsame, hfull, fun _ => readAll_of_ended hfine hopening hsizes,
      fun henough => ?_⟩
    rw [← hsame, ← hending]
    exact stream.readAll_ends hsizes (hsame.symm ▸ henough)
  case bridge =>
    intro stream hopening
    obtain ⟨hsame, hending⟩ := bytes_of_opened hfine hopening
    rw [← hsame, ← hending, ← stream.source_bytes, ← stream.source_ending]
    exact Session.Log.pump_all fun text => by
      rw [stream.source_ending, hending]
      exact hfine text
  case session =>
    intro σ registry client cluster capacity tail moves n l w hl hfollows hended
    obtain ⟨-, hlogs⟩ : Tended registry w ∧ LogsKnown w :=
      logsKnown_run client cluster capacity tail moves
    exact payloads_of_follows hfine (hlogs.known n l hl) hfollows hended

/-- A run that writes twice and then fails. -/
def cutOff : LogRun := ⟨⟨[[104, 105], [], [33]], some .finished⟩, 1, "connection lost"⟩

/-- The session that follows it reads the first piece only when the second has been written. -/
def followedToEnd : World Cluster.Memory :=
  let registry := Registry.empty.register "pod" "open" Handler.openLog
  let frame := ("[\"pod\",\"open\",\"7\"," ++
    "\x7b\"name\":\"web\",\"namespace\":\"prod\",\"session_id\":\"s\"\x7d]").toUTF8.toList
  (World.start registry Cluster.Memory.client Cluster.Memory.empty 9 0).run
    [.frame frame, .take, .run (.request 0) false, .run (.handler 0) false,
      .run (.log 0) false, .run (.log 0) false, .logWrite 0 [104, 105], .logWrite 0 [33],
      .run (.log 0) false, .logEnd 0, .run (.log 0) false, .run (.log 0) false]

theorem log_survives_first_read_of_cut_off_run :
    cutOff.opening = .opened ⟨[104, 105], ⟨[[], [33]], some .finished⟩⟩ ∧
    (∃ chunks : List (List UInt8),
      envelopes (followedToEnd.deedsOf (.log 0)) = chunks.map (Envelope.log "s") ∧
        chunks.flatten = [104, 105, 33]) ∧
    ∃ failure, (⟨⟨[[], []], some .finished⟩, 1, "pods \"web\" not found"⟩ : LogRun).opening =
      .failed failure := by
  have hfine : cutOff.ReadsWell := fun text => by simp [cutOff]
  have hopening : cutOff.opening = .opened ⟨[104, 105], ⟨[[], [33]], some .finished⟩⟩ := by
    decide +kernel
  obtain ⟨hdeeds, hwritten, hone⟩ :
      followedToEnd.deedsOf (.log 0) =
          [.claim ⟨"s", 1⟩, .dial none, .read [104, 105, 33],
            .queue (Envelope.log "s" [104, 105, 33]), .finish .finished, .release ⟨"s", 1⟩] ∧
        followedToEnd.writtenTo (.log 0) = [104, 105, 33] ∧
          followedToEnd.agent.logs[0]?.map Log.id = some "s" := by
    decide +kernel
  have hfollows : Follows followedToEnd 0 cutOff := by
    constructor
    · intro result hdial
      rw [hdeeds] at hdial
      obtain rfl : result = none := by simpa using hdial
      rw [hopening]
      rfl
    · intro stream hstream
      rw [hopening] at hstream
      obtain rfl := Opening.opened.inj hstream
      refine ⟨[1, 8192, 1, 1], by decide, by rw [hwritten]; rfl, fun ending hfinish => ?_⟩
      rw [hdeeds] at hfinish
      obtain rfl : ending = .finished := by simpa using hfinish
      rfl
  have hended : EndedByItself (followedToEnd.deedsOf (.log 0)) :=
    .inl ⟨.finished, by rw [hdeeds]; simp⟩
  obtain ⟨l, hl, hid⟩ := Option.map_eq_some_iff.mp hone
  refine ⟨hopening, ?_, ?_⟩
  · rcases (log_survives_first_read cutOff hfine).session _ _ _ _ _ _ 0 l hl hfollows hended with
      ⟨chunks, htold, -, hall⟩ | ⟨failure, hfailed, -⟩
    · exact ⟨chunks, hid ▸ htold, hall⟩
    · cases hopening.symm.trans hfailed
  · exact ⟨_, ((log_survives_first_read _ fun text => by simp).failed _).mpr
      ⟨rfl, rfl, by decide, rfl⟩⟩

end ClusterAgent.Agent
