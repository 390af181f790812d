/-
  ClusterAgent/Proofs/Tunnel/Redial.lean
  ======================================
  **Further dials follow a clock, not the dial before them.**

  The clock is set once, when a connection is lost, and its ticks stay where they are
  however long a dial takes.  So the k-th dial never starts before the k-th tick, and
  an outage of k intervals sees at most one dial for each of them
  (`dials_follow_the_clock`).  The distance between two dials that follow each other is
  another matter: it is an interval where the first of them was on time or took an interval
  at least, and shorter in every other case.  A dial that overran leaves ticks behind which
  are made up for at once (`overrun_dials_crowd`).

  All this is about the starts that `dialStarts` lists, and these are the starts of the dials
  of a tunnel: whatever happens to one that was launched, whenever it dials, its clock has
  the starts for the dials that have failed since the outage began (`outage_of_launch`), and
  every course of failing dials comes about (`launch_missing`).
-/
import ClusterAgent.Proofs.Tunnel.Course
import ClusterAgent.Tunnel.Redial
import Mathlib.Tactic.Ring

namespace ClusterAgent.Tunnel

variable {interval due now : Nat} {durations : List Nat}

/-! ### One dial after another -/

theorem length_furtherStarts (interval due now : Nat) (durations : List Nat) :
    (furtherStarts interval due now durations).length = durations.length := by
  induction durations generalizing due now with
  | nil => rfl
  | cons duration rest ih =>
    simp only [furtherStarts, List.length_cons]
    rw [ih]

/-- A dial waits for the end of the one before it and for its tick, whichever comes later. -/
theorem furtherStarts_next {k start duration : Nat}
    (hstart : (now :: furtherStarts interval due now durations)[k]? = some start)
    (hduration : durations[k]? = some duration) :
    (furtherStarts interval due now durations)[k]? =
      some (max (start + duration) (due + k * interval)) := by
  -- the induction follows the dials; each of them moves the tick that is due by one interval
  induction durations generalizing due now k with
  | nil => cases hduration
  | cons first rest ih =>
    cases k with
    | zero =>
      cases hstart
      cases hduration
      simp [furtherStarts]
    | succ k =>
      have hrest := @ih (due + interval) (max (now + first) due) k hstart hduration
      simp only [furtherStarts, List.getElem?_cons_succ]
      rw [hrest, show due + interval + k * interval = due + (k + 1) * interval by ring]

theorem length_dialStarts (interval now : Nat) (durations : List Nat) :
    (dialStarts interval now durations).length = durations.length + 1 := by
  simp [dialStarts, length_furtherStarts]

theorem dialStarts_next {k start duration : Nat}
    (hstart : (dialStarts interval now durations)[k]? = some start)
    (hduration : durations[k]? = some duration) :
    (dialStarts interval now durations)[k + 1]? =
      some (max (start + duration) (now + (k + 1) * interval)) := by
  have hnext := furtherStarts_next hstart hduration
  rw [show now + interval + k * interval = now + (k + 1) * interval by ring] at hnext
  exact hnext

/-- Every dial but the first comes after one that took its time and failed. -/
theorem dialStarts_succ {k next : Nat}
    (hnext : (dialStarts interval now durations)[k + 1]? = some next) :
    ∃ start duration, (dialStarts interval now durations)[k]? = some start ∧
      durations[k]? = some duration ∧
      next = max (start + duration) (now + (k + 1) * interval) := by
  obtain ⟨hk, -⟩ := List.getElem?_eq_some_iff.mp hnext
  rw [length_dialStarts] at hk
  have hstart := List.getElem?_eq_getElem (l := dialStarts interval now durations) (i := k)
    (by rw [length_dialStarts]; omega)
  have hduration := List.getElem?_eq_getElem (l := durations) (i := k) (by omega)
  refine ⟨_, _, hstart, hduration, ?_⟩
  rw [dialStarts_next hstart hduration] at hnext
  exact (Option.some.inj hnext).symm

/-! ### The clock -/

/-- No dial starts before its tick. -/
theorem tick_le_start {k start : Nat}
    (hstart : (dialStarts interval now durations)[k]? = some start) :
    now + k * interval ≤ start := by
  cases k with
  | zero =>
    cases hstart
    simp
  | succ k =>
    obtain ⟨_, _, -, -, rfl⟩ := dialStarts_succ hstart
    exact Nat.le_max_right _ _

/-- Where no dial takes longer than an interval, every dial starts at its tick. -/
theorem start_eq_tick (hshort : ∀ duration ∈ durations, duration ≤ interval) {k start : Nat}
    (hstart : (dialStarts interval now durations)[k]? = some start) :
    start = now + k * interval := by
  induction k generalizing start with
  | zero =>
    cases hstart
    simp
  | succ k ih =>
    obtain ⟨before, duration, hbefore, hduration, rfl⟩ := dialStarts_succ hstart
    have hpunctual := ih hbefore
    have hle := hshort duration (List.mem_of_getElem? hduration)
    rw [Nat.max_eq_right (by rw [hpunctual, Nat.add_mul]; omega)]

/-- Two dials that follow each other are an interval apart if the first of them took that long or
    was on time, and only then. -/
theorem spaced_iff {k start duration next : Nat}
    (hstart : (dialStarts interval now durations)[k]? = some start)
    (hduration : durations[k]? = some duration)
    (hnext : (dialStarts interval now durations)[k + 1]? = some next) :
    start + interval ≤ next ↔ interval ≤ duration ∨ start = now + k * interval := by
  rw [dialStarts_next hstart hduration] at hnext
  obtain rfl := Option.some.inj hnext
  have hlate := tick_le_start hstart
  have htick : now + (k + 1) * interval = now + k * interval + interval := by ring
  constructor
  · intro hspaced
    rw [htick] at hspaced
    omega
  · rintro (hlong | hpunctual)
    · exact le_trans (Nat.add_le_add_left hlong start) (Nat.le_max_left _ _)
    · rw [hpunctual, ← htick]
      exact Nat.le_max_right _ _

/-- Before the k-th tick there are at most `k` dials. -/
theorem dials_before_tick (interval now : Nat) (durations : List Nat) (k : Nat) :
    ((dialStarts interval now durations).filter (· < now + k * interval)).length ≤ k := by
  rw [← List.take_append_drop k (dialStarts interval now durations), List.filter_append,
    List.length_append]
  have hlater : ((dialStarts interval now durations).drop k).filter (· < now + k * interval) =
      [] := by
    rw [List.filter_eq_nil_iff]
    intro start hmem
    obtain ⟨j, hj⟩ := List.mem_iff_getElem?.mp hmem
    rw [List.getElem?_drop] at hj
    have htick := tick_le_start hj
    have hle := Nat.mul_le_mul_right interval (Nat.le_add_right k j)
    simp only [decide_eq_true_eq]
    omega
  rw [hlater, List.length_nil, Nat.add_zero]
  exact le_trans (List.length_filter_le _ _) (List.length_take_le _ _)

/-! ### An outage -/

/-- The dials of an outage that began at time `now`, where the dials take so long and fail. -/
structure FollowsClock (interval now : Nat) (durations starts : List Nat) : Prop where
  /-- There is one dial more than dials that failed. -/
  count : starts.length = durations.length + 1
  immediate : starts[0]? = some now
  /-- The next dial starts when the one before has failed and its tick has come. -/
  next : ∀ k start duration, starts[k]? = some start → durations[k]? = some duration →
    starts[k + 1]? = some (max (start + duration) (now + (k + 1) * interval))
  notEarly : ∀ k start, starts[k]? = some start → now + k * interval ≤ start
  punctual : (∀ duration ∈ durations, duration ≤ interval) →
    ∀ k start, starts[k]? = some start → start = now + k * interval
  /-- Two neighbours are an interval apart just if the first was long or on time. -/
  spaced : ∀ k start duration next, starts[k]? = some start → durations[k]? = some duration →
    starts[k + 1]? = some next →
    (start + interval ≤ next ↔ interval ≤ duration ∨ start = now + k * interval)
  /-- Up to any tick there have been no more dials than intervals. -/
  rate : ∀ k, (starts.filter (· < now + k * interval)).length ≤ k

/-- **Dials follow a clock.**  For every interval and all durations of failing dials: the first dial
    starts at once, each further one at its tick or, if the dial before it is still going on then,
    when that has failed. -/
theorem dials_follow_the_clock (interval now : Nat) (durations : List Nat) :
    FollowsClock interval now durations (dialStarts interval now durations) where
  count := length_dialStarts interval now durations
  immediate := rfl
  next := by
    intro k start duration hstart hduration
    exact dialStarts_next hstart hduration
  notEarly := by
    intro k start hstart
    exact tick_le_start hstart
  punctual := by
    intro hshort k start hstart
    exact start_eq_tick hshort hstart
  spaced := by
    intro k start duration next hstart hduration hnext
    exact spaced_iff hstart hduration hnext
  rate := dials_before_tick interval now durations

/-- With ticks every five, a dial that takes twelve is followed by two at once, for the ticks at
    five and at ten; the clock is caught up with at fifteen. -/
example : dialStarts 5 0 [12, 0, 0, 0] = [0, 12, 12, 15, 20] := by decide

/-- Dials that follow each other need not be an interval apart: after one that took twelve, with
    ticks every five, the second and the third start at the same time. -/
theorem overrun_dials_crowd :
    ¬ ∀ (interval now : Nat) (durations : List Nat) (k start next : Nat),
      (dialStarts interval now durations)[k]? = some start →
      (dialStarts interval now durations)[k + 1]? = some next → start + interval ≤ next := by
  intro hspaced
  have hcrowded : dialStarts 5 0 [12, 0] = [0, 12, 12] := rfl
  have := hspaced 5 0 [12, 0] 1 12 12 (by rw [hcrowded]; rfl) (by rw [hcrowded]; rfl)
  omega

/-! ### The clock of a tunnel -/

/-- A dial more that took so long and failed. -/
theorem furtherStarts_concat {last : Nat}
    (hlast : (now :: furtherStarts interval due now durations).getLast? = some last)
    (duration : Nat) :
    furtherStarts interval due now (durations ++ [duration]) =
      furtherStarts interval due now durations ++
        [max (last + duration) (due + durations.length * interval)] := by
  induction durations generalizing due now with
  | nil =>
    cases hlast
    simp [furtherStarts]
  | cons first rest ih =>
    have hrest := @ih (due + interval) (max (now + first) due) (by simpa [furtherStarts] using hlast)
    rw [show due + interval + rest.length * interval = due + (rest.length + 1) * interval by ring]
      at hrest
    simp only [List.cons_append, furtherStarts, hrest, List.length_cons]

theorem dialStarts_concat {last : Nat}
    (hlast : (dialStarts interval now durations).getLast? = some last) (duration : Nat) :
    dialStarts interval now (durations ++ [duration]) =
      dialStarts interval now durations ++
        [max (last + duration) (now + (durations.length + 1) * interval)] := by
  have htick : now + interval + durations.length * interval =
      now + (durations.length + 1) * interval := by ring
  rw [dialStarts, furtherStarts_concat hlast duration, ← List.cons_append, ← dialStarts, htick]

/-- When dials that start at these times and take so long have failed; one more goes on. -/
def dialEnds (starts durations : List Nat) : List Nat :=
  List.zipWith (· + ·) starts durations

theorem dialEnds_concat {starts : List Nat} {last : Nat}
    (hlength : starts.length = durations.length + 1) (hlast : starts.getLast? = some last)
    (next duration : Nat) :
    dialEnds (starts ++ [next]) (durations ++ [duration]) =
      dialEnds starts durations ++ [last + duration] := by
  obtain ⟨failed, rfl⟩ := List.getLast?_eq_some_iff.mp hlast
  have hsame : failed.length = durations.length := by simpa using hlength
  have hbefore : dialEnds (failed ++ [last]) durations = dialEnds failed durations := by
    rw [← List.append_nil durations, dialEnds, List.zipWith_append hsame]
    simp [dialEnds]
  rw [hbefore, dialEnds, List.append_assoc, List.zipWith_append hsame]
  simp [dialEnds]

namespace DialClock

variable {k : DialClock} {began : Nat}

/-- A clock that was set at second `began` and has seen dials that took so long and failed. -/
structure Shows (interval began : Nat) (durations : List Nat) (k : DialClock) : Prop where
  starts : k.starts = dialStarts interval began durations
  due : k.due = began + (durations.length + 1) * interval

theorem shows_set (interval now : Nat) : (set interval now).Shows interval now [] where
  starts := rfl
  due := by simp [set]

theorem isDialing_iff :
    k.isDialing now = true ↔
      ∃ start duration, k.starts.getLast? = some start ∧ start + duration = now := by
  unfold isDialing
  rw [Option.any_eq_true]
  constructor
  · rintro ⟨start, hstart, hle⟩
    exact ⟨start, now - start, hstart, Nat.add_sub_of_le (of_decide_eq_true hle)⟩
  · rintro ⟨start, duration, hstart, rfl⟩
    exact ⟨start, hstart, decide_eq_true (Nat.le_add_right start duration)⟩

/-- The dial that goes on takes so long and fails. -/
theorem Shows.fail (h : k.Shows interval began durations) {start : Nat}
    (hstart : k.starts.getLast? = some start) (duration : Nat) :
    (k.fail interval (start + duration)).Shows interval began (durations ++ [duration]) where
  starts := by
    have hlast : (dialStarts interval began durations).getLast? = some start := h.starts ▸ hstart
    rw [dialStarts_concat hlast, ← h.starts, ← h.due]
    rfl
  due := by
    have htick : k.due + interval = began + (durations.length + 1 + 1) * interval := by
      rw [h.due]
      ring
    simpa [DialClock.fail] using htick

end DialClock

/-! ### The outage in which a course ends -/

/-- The seconds at which a dial failed. -/
def misses (course : List (Nat × Event)) : List Nat :=
  (course.filter (·.2 = .dialFailed)).map (·.1)

/-- A course ends in an outage that began at second `began`: since then dials have taken so long and
    failed, and none was answered. -/
def InOutage (interval began : Nat) (durations : List Nat) (course : List (Nat × Event)) : Prop :=
  ∃ before beginning later, course = before ++ (began, beginning) :: later ∧
    (beginning = .start ∨ beginning = .closed) ∧
    (∀ e ∈ later, e.2 ≠ .start ∧ e.2 ≠ .dialed ∧ e.2 ≠ .closed) ∧
    misses later = dialEnds (dialStarts interval began durations) durations

section Outage

variable {began : Nat} {course : List (Nat × Event)}

theorem inOutage_begins {beginning : Event} (h : beginning = .start ∨ beginning = .closed) :
    InOutage interval now [] (course ++ [(now, beginning)]) :=
  ⟨course, beginning, [], rfl, h, List.forall_mem_nil _, rfl⟩

/-- One event more, which is neither a beginning nor an answer. -/
theorem InOutage.concat (h : InOutage interval began durations course) {e : Nat × Event}
    (he : e.2 ≠ .start ∧ e.2 ≠ .dialed ∧ e.2 ≠ .closed) {durations' : List Nat}
    (hends : dialEnds (dialStarts interval began durations') durations' =
      dialEnds (dialStarts interval began durations) durations ++ misses [e]) :
    InOutage interval began durations' (course ++ [e]) := by
  obtain ⟨before, beginning, later, rfl, hbegins, hlater, hmisses⟩ := h
  refine ⟨before, beginning, later ++ [e], by simp, hbegins, ?_, ?_⟩
  · exact List.forall_mem_append.mpr ⟨hlater, List.forall_mem_singleton.mpr he⟩
  · rw [hends, ← hmisses]
    simp [misses]

theorem InOutage.goesOn (h : InOutage interval began durations course) {event : Event}
    (hevent : event ≠ .start ∧ event ≠ .dialed ∧ event ≠ .closed) (hmiss : event ≠ .dialFailed) :
    InOutage interval began durations (course ++ [(now, event)]) := by
  apply h.concat hevent
  simp [misses, hmiss]

theorem InOutage.miss (h : InOutage interval began durations course) {start : Nat}
    (hstart : (dialStarts interval began durations).getLast? = some start) (duration : Nat) :
    InOutage interval began (durations ++ [duration])
      (course ++ [(start + duration, .dialFailed)]) := by
  apply h.concat
  · exact ⟨nofun, nofun, nofun⟩
  · rw [dialStarts_concat hstart, dialEnds_concat (length_dialStarts _ _ _) hstart]
    simp [misses]

end Outage

/-! ### A launched tunnel -/

theorem step?_of_stepAt {c : Config.Transport} {t t' : Tunnel} {e : Nat × Event}
    (h : stepAt c t e = .ok t') : t.step? e.2 = some t' := by
  unfold stepAt at h
  cases hstep : t.step? e.2 with
  | none =>
    rw [hstep] at h
    cases h
  | some next =>
    rw [hstep] at h
    dsimp only at h
    split at h
    · cases h
    · exact congrArg some (Except.ok.inj h)

namespace Clocked

variable {c : Config.Transport} {s s' : Clocked} {course : List (Nat × Event)}

theorem stepAt_eq_ok_iff {e : Nat × Event} :
    stepAt c s e = .ok s' ↔ Tunnel.stepAt c s.tunnel e = .ok s'.tunnel ∧
      s.clock.after? c.reconnectSecs e.1 s'.tunnel e.2 = some s'.clock := by
  unfold stepAt
  cases hstep : Tunnel.stepAt c s.tunnel e with
  | error halt => simp
  | ok next =>
    dsimp only
    constructor
    · intro h
      cases hclock : s.clock.after? c.reconnectSecs e.1 next e.2 with
      | none =>
        rw [hclock] at h
        cases h
      | some clock =>
        rw [hclock] at h
        obtain rfl := Except.ok.inj h
        exact ⟨rfl, hclock⟩
    · rintro ⟨hnext, hclock⟩
      obtain rfl := Except.ok.inj hnext
      rw [hclock]

/-- When a tunnel dials, its course ends in an outage, and its clock shows the dials of that. -/
def Known (c : Config.Transport) (course : List (Nat × Event)) (s : Clocked) : Prop :=
  s.tunnel.phase = .dialing → ∃ began durations,
    InOutage c.reconnectSecs began durations course ∧
      s.clock.Shows c.reconnectSecs began durations

theorem Known.step (h : Known c course s) {now : Nat} {event : Event}
    (hstep : stepAt c s (now, event) = .ok s') : Known c (course ++ [(now, event)]) s' := by
  obtain ⟨htunnel, hclock⟩ := stepAt_eq_ok_iff.mp hstep
  have hhappens := step_happens (step?_of_stepAt htunnel)
  obtain ⟨t, k⟩ := s
  obtain ⟨u, k'⟩ := s'
  intro hdialing
  dsimp only at hhappens hclock hdialing ⊢
  cases hhappens with
  | queue | shutdown =>
    obtain ⟨began, durations, houtage, hshows⟩ := h hdialing
    obtain rfl := Option.some.inj hclock
    exact ⟨began, durations, houtage.goesOn ⟨nofun, nofun, nofun⟩ nofun, hshows⟩
  | start =>
    obtain rfl := Option.some.inj hclock
    exact ⟨now, [], inOutage_begins (.inl rfl), DialClock.shows_set _ _⟩
  | miss hbegun =>
    obtain ⟨began, durations, houtage, hshows⟩ := h hbegun
    obtain ⟨hon, hfail⟩ : k.isDialing now = true ∧ k.fail c.reconnectSecs now = k' := by
      simpa [DialClock.after?] using hclock
    obtain ⟨start, duration, hstart, rfl⟩ := DialClock.isDialing_iff.mp hon
    exact ⟨began, durations ++ [duration], houtage.miss (hshows.starts ▸ hstart) duration,
      hfail ▸ hshows.fail hstart duration⟩
  | establish => simp [phase_publish, withConnection] at hdialing
  | abandon | stop => simp [Tunnel.stop, phase_publish] at hdialing
  | goOn _ _ _ _ _ _ hon => cases hon.phase.symm.trans hdialing
  | redial =>
    rw [DialClock.after?, if_pos hdialing] at hclock
    obtain rfl := Option.some.inj hclock
    exact ⟨now, [], inOutage_begins (.inr rfl), DialClock.shows_set _ _⟩

/-- Events later the tunnel is what it is without a clock, and as much is known of it. -/
theorem Known.run {before : List (Nat × Event)} (h : Known c before s)
    (hrun : course.foldlM (stepAt c) s = .ok s') :
    course.foldlM (Tunnel.stepAt c) s.tunnel = .ok s'.tunnel ∧ Known c (before ++ course) s' := by
  induction course generalizing before s with
  | nil =>
    obtain rfl := Except.ok.inj hrun
    exact ⟨rfl, (List.append_nil before).symm ▸ h⟩
  | cons e course ih =>
    rw [List.foldlM_cons] at hrun
    cases hstep : stepAt c s e with
    | error halt =>
      rw [hstep] at hrun
      cases hrun
    | ok next =>
      rw [hstep] at hrun
      obtain ⟨htunnel, hknown⟩ := ih (h.step hstep) hrun
      refine ⟨?_, by simpa using hknown⟩
      rw [List.foldlM_cons, (stepAt_eq_ok_iff.mp hstep).1]
      exact htunnel

/-- **The starts are those of the dials of a tunnel.**  Whatever happens to a tunnel that was
    launched, it does what it does without a clock for its dials.  And whenever it dials, the dials
    that have failed since the outage began started, and the one that goes on starts, when
    `dialStarts` says. -/
theorem outage_of_launch (h : launch c course = .ok s) :
    Tunnel.launch c course = .ok s.tunnel ∧ Known c course s := by
  unfold launch at h
  unfold Tunnel.launch
  cases hchannel : channelHazard? (requestCapacity c) with
  | some hazard =>
    rw [hchannel] at h
    cases h
  | none =>
    rw [hchannel] at h
    have hfresh : Known c [] ⟨Tunnel.ofCapacity c.outboundQueue, .unset⟩ := nofun
    exact hfresh.run h

/-- A tunnel is started at second `began`, and then dials take so long and fail. -/
def missing (interval began : Nat) (durations : List Nat) : List (Nat × Event) :=
  (began, .start) :: (dialEnds (dialStarts interval began durations) durations).map (·, .dialFailed)

theorem missing_concat {interval began last : Nat} {durations : List Nat}
    (hlast : (dialStarts interval began durations).getLast? = some last) (duration : Nat) :
    missing interval began (durations ++ [duration]) =
      missing interval began durations ++ [(last + duration, .dialFailed)] := by
  unfold missing
  rw [dialStarts_concat hlast, dialEnds_concat (length_dialStarts _ _ _) hlast]
  simp

/-- Every such course comes about, if the channel and the clock can be made. -/
theorem launch_missing {began : Nat} (hchannel : channelHazard? (requestCapacity c) = none)
    (hclock : clockHazard? began c.reconnectSecs = none) (durations : List Nat) :
    ∃ s, launch c (missing c.reconnectSecs began durations) = .ok s ∧
      s.tunnel.phase = .dialing ∧ s.clock.Shows c.reconnectSecs began durations := by
  simp only [launch, hchannel]
  induction durations using List.reverseRecOn with
  | nil =>
    refine ⟨⟨(Tunnel.ofCapacity c.outboundQueue).dial, .set c.reconnectSecs began⟩, ?_, rfl,
      DialClock.shows_set _ _⟩
    simp [missing, dialEnds, stepAt, Tunnel.stepAt, step?, Tunnel.ofCapacity, panic?, hclock,
      DialClock.after?]
  | append_singleton durations duration ih =>
    obtain ⟨s, hrun, hphase, hshows⟩ := ih
    obtain ⟨start, hstart⟩ : ∃ start, s.clock.starts.getLast? = some start := by
      rw [hshows.starts]
      exact ⟨_, List.getLast?_eq_some_getLast (List.cons_ne_nil _ _)⟩
    have hon : s.clock.isDialing (start + duration) = true :=
      DialClock.isDialing_iff.mpr ⟨start, duration, hstart, rfl⟩
    have hstep : stepAt c s (start + duration, .dialFailed) =
        .ok ⟨s.tunnel, s.clock.fail c.reconnectSecs (start + duration)⟩ := by
      rw [stepAt_eq_ok_iff]
      constructor
      · simp [Tunnel.stepAt, step?, hphase, panic?]
      · simp [DialClock.after?, hon]
    refine ⟨⟨s.tunnel, s.clock.fail c.reconnectSecs (start + duration)⟩, ?_, hphase,
      hshows.fail hstart duration⟩
    rw [missing_concat (hshows.starts ▸ hstart), List.foldlM_append, hrun]
    show [(start + duration, Event.dialFailed)].foldlM (stepAt c) s = _
    rw [List.foldlM_cons, hstep]
    rfl

/-- With ticks every five, a dial that took twelve is followed by two at once, and after one that
    took two the next cannot fail at three. -/
example :
    let c : Config.Transport := ⟨5, 30, 1024, 256⟩
    (launch c [(0, .start), (12, .dialFailed), (12, .dialFailed)]).map (·.clock) =
        .ok ⟨[0, 12, 12], 15⟩ ∧
      (launch c [(0, .start), (2, .dialFailed), (3, .dialFailed)]).map (·.clock) =
        .error .impossible :=
  ⟨rfl, rfl⟩

end Clocked

end ClusterAgent.Tunnel
