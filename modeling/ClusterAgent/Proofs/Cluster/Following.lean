/-
  ClusterAgent/Proofs/Cluster/Following.lean
  ==========================================
  **The first read of a log is given again.**

  A log is opened by reading from the tool's output once.  Whatever the output is cut
  into, that read decides between a failure, an empty log and a stream, and the stream
  gives every byte of the output (`LogRun.opens_opening`).  For a run that has ended the
  outcome is what its output and status say (`Exit.logStream_eq`).
-/
import ClusterAgent.Cluster.Following
import ClusterAgent.Proofs.Session.Replay

namespace ClusterAgent.Cluster

open Session (Replay)

variable {r : LogRun}

/-- All that the output of a run gives. -/
def LogRun.bytes (r : LogRun) : List UInt8 :=
  r.stdout.pieces.flatten

/-- No read of the output fails. -/
def LogRun.ReadsWell (r : LogRun) : Prop :=
  ∀ text, r.stdout.ending ≠ some (.failed text)

/-- What opening the log of a run comes to. -/
inductive LogRun.Opens (r : LogRun) : Opening → Prop where
  | waiting (empty : r.bytes = []) (going : r.stdout.ending = none) : Opens r .waiting
  | failed (empty : r.bytes = []) (last : r.stdout.ending = some .finished)
      (status : r.status ≠ 0) : Opens r (.failed (Failure.classify r.status r.stderr))
  | opened (stream : Replay) (accepted : r.bytes ≠ [] ∨ r.stdout.ending = some .finished ∧ r.status = 0)
      (same : stream.bytes = r.bytes) (ending : stream.rest.ending = r.stdout.ending) :
      Opens r (.opened stream)

theorem LogRun.opens_opening (hfine : r.ReadsWell) : r.Opens r.opening := by
  have hgives := r.stdout.gives_read
  unfold LogRun.opening
  cases hread : r.stdout.read <;> rw [hread] at hgives <;> cases hgives
  case bytes first rest hfull _ hsame horder =>
    refine .opened _ (.inl ?_) horder hsame
    rw [LogRun.bytes, ← horder]
    exact List.append_ne_nil_of_left_ne_nil hfull _
  case ended e hempty hover =>
    cases e with
    | failed text => exact absurd hover (hfine text)
    | finished =>
      by_cases hstatus : r.status = 0
      · simp only [Exit.output, hstatus, if_true]
        exact .opened _ (.inr ⟨hover, hstatus⟩) hempty.symm hover.symm
      · simp only [Exit.output, hstatus, if_false]
        exact .failed hempty hover hstatus
  case nothing hempty hgoing => exact .waiting hempty hgoing

theorem LogRun.opens_of_eq (hfine : r.ReadsWell) {opening : Opening} (h : r.opening = opening) :
    r.Opens opening :=
  h ▸ LogRun.opens_opening hfine

/-- The log of a run that has ended: a failure if it has written nothing and failed, else its
    output. -/
theorem Exit.logStream_eq (e : Exit) :
    e.logStream = if e.stdout = [] then e.output else .ok e.stdout := by
  have hbytes : e.logRun.bytes = e.stdout := by simp [Exit.logRun, LogRun.bytes]
  have hopens := LogRun.opens_opening (r := e.logRun) fun text => by simp [Exit.logRun]
  unfold Exit.logStream
  cases hopening : e.logRun.opening <;> rw [hopening] at hopens <;> cases hopens
  case waiting _ hgoing => cases hgoing
  case failed hempty _ hstatus =>
    have hnone : e.stdout = [] := hbytes ▸ hempty
    have hfailed : e.status ≠ 0 := hstatus
    simp [hnone, Exit.output, hfailed, Exit.logRun]
  case opened stream haccepted hsame _ =>
    rw [hbytes] at haccepted hsame
    have hsizes : ∀ size ∈ List.replicate (e.stdout.length + 1) Session.Source.readLimit, 0 < size := by
      intro size hsize
      rw [List.eq_of_mem_replicate hsize]
      decide
    have henough : stream.bytes.length <
        (List.replicate (e.stdout.length + 1) Session.Source.readLimit).length := by
      rw [hsame, List.length_replicate]
      exact Nat.lt_succ_self _
    dsimp only
    rw [(Replay.readAll_ends hsizes stream henough).1, hsame]
    split
    case isTrue hnone =>
      rcases haccepted with hsome | ⟨-, hstatus⟩
      · exact absurd hnone hsome
      · have hfine : e.status = 0 := hstatus
        rw [Exit.output, if_pos hfine]
    case isFalse => rfl

end ClusterAgent.Cluster
