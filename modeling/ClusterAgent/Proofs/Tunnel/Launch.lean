/-
  ClusterAgent/Proofs/Tunnel/Launch.lean
  ======================================
  **Which configurations can bring a launched tunnel down.**

  A panic is due where a number of the configuration is at an end of its range
  (`Panic.Due`).  Between two events of a tunnel nothing is forgotten but the clocks that
  could be made (`Wound`), so a panic that comes is due (`Wound.stepAt`), and one that is
  due comes at the first dial, at the first connection, or before there is a tunnel
  (`exists_course`).  Up to a second at which none is due, a launched tunnel does what a
  tunnel does without clocks (`launch_eq_run`).
-/
import ClusterAgent.Proofs.Config.Range
import ClusterAgent.Proofs.Tunnel.Course
import ClusterAgent.Tunnel.Launch

namespace ClusterAgent.Tunnel

open Config (Transport)

variable {c : Transport} {t t' : Tunnel} {e : Nat × Event} {horizon now secs : Nat}

/-- The events come in order, and the last one not after a certain second. -/
def Timely (horizon : Nat) (course : List (Nat × Event)) : Prop :=
  course.Pairwise (·.1 ≤ ·.1) ∧ ∀ e ∈ course, e.1 ≤ horizon

/-- The numbers that stand behind a panic that can come up to a certain second. -/
def Panic.Due (c : Transport) (horizon : Nat) : Panic → Prop
  | .requestChannel .channelTooLarge => channelLimit < c.requestQueue
  | .dialClock .zeroPeriod => c.requestQueue ≤ channelLimit ∧ c.reconnectSecs = 0
  | .dialClock .tickBeyondTime =>
    c.requestQueue ≤ channelLimit ∧ 0 < c.reconnectSecs ∧ lastSecond < horizon + c.reconnectSecs
  | .heartbeatClock .tickBeyondTime =>
    c.requestQueue ≤ channelLimit ∧ 0 < c.reconnectSecs ∧ 0 < c.heartbeatSecs ∧
      lastSecond < horizon + c.heartbeatSecs
  | _ => False

/-- No number of the configuration is at an end of its range, up to a certain second. -/
structure Harmless (c : Transport) (horizon : Nat) : Prop where
  request : c.requestQueue ≤ channelLimit
  reconnect : 0 < c.reconnectSecs
  dial : horizon + c.reconnectSecs ≤ lastSecond
  heartbeat : horizon + c.heartbeatSecs ≤ lastSecond

/-! ### What cannot be made -/

theorem clockHazard?_eq_none_iff :
    clockHazard? now secs = none ↔ 0 < secs ∧ now + secs ≤ lastSecond := by
  unfold clockHazard?
  split
  · simp_all
  · split
    · simp only [reduceCtorEq, false_iff]
      omega
    · simp only [true_iff]
      omega

theorem clockHazard?_cases {h : Hazard} (hh : clockHazard? now secs = some h) :
    h = .zeroPeriod ∧ secs = 0 ∨ h = .tickBeyondTime ∧ 0 < secs ∧ lastSecond < now + secs := by
  unfold clockHazard? at hh
  split at hh
  case isTrue hzero => exact .inl ⟨(Option.some.inj hh).symm, hzero⟩
  case isFalse hpos =>
    split at hh
    case isTrue hlate => exact .inr ⟨(Option.some.inj hh).symm, Nat.pos_of_ne_zero hpos, hlate⟩
    case isFalse => cases hh

theorem channelHazard?_requestCapacity (c : Transport) :
    channelHazard? (requestCapacity c) =
      if channelLimit < c.requestQueue then some .channelTooLarge else none := by
  have hone : 1 ≤ channelLimit := by decide
  unfold channelHazard? requestCapacity
  by_cases hlarge : channelLimit < c.requestQueue
  · rw [if_pos (.inr (by omega)), if_pos hlarge]
  · rw [if_neg (by omega), if_neg hlarge]

theorem heartbeatHazard?_eq_none_iff :
    c.heartbeat?.bind (clockHazard? now) = none ↔
      (0 < c.heartbeatSecs → now + c.heartbeatSecs ≤ lastSecond) := by
  unfold Transport.heartbeat?
  split
  case isTrue hzero => simp [hzero]
  case isFalse hpos =>
    rw [Option.bind_some, clockHazard?_eq_none_iff]
    exact ⟨fun h _ => h.2, fun h => ⟨Nat.pos_of_ne_zero hpos, h (Nat.pos_of_ne_zero hpos)⟩⟩

theorem heartbeatHazard?_cases {h : Hazard} (hh : c.heartbeat?.bind (clockHazard? now) = some h) :
    h = .tickBeyondTime ∧ 0 < c.heartbeatSecs ∧ lastSecond < now + c.heartbeatSecs := by
  obtain ⟨secs, hsecs, hh⟩ := Option.bind_eq_some_iff.mp hh
  unfold Transport.heartbeat? at hsecs
  split at hsecs
  case isTrue => cases hsecs
  case isFalse hpos =>
    obtain rfl := Option.some.inj hsecs
    rcases clockHazard?_cases hh with ⟨-, hzero⟩ | ⟨rfl, hsome, hlate⟩
    · exact absurd hzero hpos
    · exact ⟨rfl, hsome, hlate⟩

/-- Nothing stands against an agent exactly where no number is at an end of its range. -/
theorem hazards_eq_nil_iff : hazards horizon c = [] ↔ Harmless c horizon := by
  have hchannel : channelHazard? (requestCapacity c) = none ↔ c.requestQueue ≤ channelLimit := by
    rw [channelHazard?_requestCapacity]
    split <;> simp <;> omega
  simp only [hazards, List.append_eq_nil_iff, Option.toList_eq_nil_iff, hchannel,
    clockHazard?_eq_none_iff, heartbeatHazard?_eq_none_iff]
  constructor
  · rintro ⟨⟨hrequest, hreconnect, hdial⟩, hbeats⟩
    refine ⟨hrequest, hreconnect, hdial, ?_⟩
    omega
  · intro h
    exact ⟨⟨h.request, h.reconnect, h.dial⟩, fun _ => h.heartbeat⟩

/-! ### One event -/

/-- A tunnel that has begun to dial could make its clock. -/
def Wound (c : Transport) (t : Tunnel) : Prop :=
  t.phase ≠ .fresh → 0 < c.reconnectSecs

theorem Wound.stepAt (h : Wound c t) (hchannel : c.requestQueue ≤ channelLimit)
    (hnow : e.1 ≤ horizon) :
    match stepAt c t e with
    | .ok next => Wound c next
    | .error .impossible => True
    | .error (.panicked p) => p.Due c horizon := by
  obtain ⟨now, event⟩ := e
  replace hnow : now ≤ horizon := hnow
  have hdial : ∀ {h : Hazard}, clockHazard? now c.reconnectSecs = some h →
      (Panic.dialClock h).Due c horizon := by
    intro h hh
    rcases clockHazard?_cases hh with ⟨rfl, hzero⟩ | ⟨rfl, hpos, hlate⟩
    · exact ⟨hchannel, hzero⟩
    · exact ⟨hchannel, hpos, by omega⟩
  unfold Tunnel.stepAt
  cases hstep : t.step? event with
  | none => trivial
  | some next =>
    have hhappens := step_happens hstep
    dsimp only
    cases hpanic : panic? c now t event with
    | none =>
      intro hphase
      cases hhappens with
      | queue | shutdown => exact h hphase
      | start =>
        have hclock := Option.map_eq_none_iff.mp hpanic
        exact (clockHazard?_eq_none_iff.mp hclock).1
      | miss hbegun | establish hbegun | abandon hbegun => exact h (by simp [hbegun])
      | goOn _ _ _ _ hbegun | stop _ hbegun | redial _ hbegun => exact h (by simp [hbegun])
    | some p =>
      unfold panic? at hpanic
      split at hpanic
      case h_1 =>
        obtain ⟨hazard, hclock, rfl⟩ := Option.map_eq_some_iff.mp hpanic
        exact hdial hclock
      case h_2 =>
        split at hpanic
        · cases hpanic
        · obtain ⟨hazard, hclock, rfl⟩ := Option.map_eq_some_iff.mp hpanic
          exact hdial hclock
      case h_3 =>
        obtain ⟨hazard, hclock, rfl⟩ := Option.map_eq_some_iff.mp hpanic
        obtain ⟨rfl, hsome, hlate⟩ := heartbeatHazard?_cases hclock
        have hbegun : t.phase ≠ .fresh := by
          cases hhappens with
          | establish hdialing => simp [hdialing]
          | goOn _ _ _ _ _ hplain => exact absurd rfl hplain.1
        exact ⟨hchannel, h hbegun, hsome, by omega⟩
      case h_4 => cases hpanic

theorem stepAt_of_harmless (h : Harmless c horizon) (hnow : e.1 ≤ horizon) :
    stepAt c t e = match t.step? e.2 with
      | some next => .ok next
      | none => .error .impossible := by
  have hclock : clockHazard? e.1 c.reconnectSecs = none :=
    clockHazard?_eq_none_iff.mpr ⟨h.reconnect, by have := h.dial; omega⟩
  have hheartbeat : c.heartbeat?.bind (clockHazard? e.1) = none :=
    heartbeatHazard?_eq_none_iff.mpr fun _ => by have := h.heartbeat; omega
  have hnone : panic? c e.1 t e.2 = none := by
    unfold panic?
    split
    · rw [hclock]
      rfl
    · rw [hclock]
      split <;> rfl
    · rw [hheartbeat]
      rfl
    · rfl
  unfold stepAt
  rw [hnone]
  cases t.step? e.2 <;> rfl

/-! ### All events -/

theorem launch_of_le (hchannel : c.requestQueue ≤ channelLimit) (course : List (Nat × Event)) :
    launch c course = course.foldlM (stepAt c) (Tunnel.ofCapacity c.outboundQueue) := by
  unfold launch
  rw [channelHazard?_requestCapacity, if_neg (by omega)]

/-- A panic among the events of a tunnel that could make its clocks is due. -/
theorem Wound.due (hchannel : c.requestQueue ≤ channelLimit) {course : List (Nat × Event)}
    (hcourse : ∀ e ∈ course, e.1 ≤ horizon) (h : Wound c t) {p : Panic}
    (hpanic : course.foldlM (Tunnel.stepAt c) t = .error (.panicked p)) : p.Due c horizon := by
  induction course generalizing t with
  | nil => cases hpanic
  | cons e course ih =>
    obtain ⟨hnow, hcourse⟩ := List.forall_mem_cons.mp hcourse
    have hstep := h.stepAt hchannel hnow
    rw [List.foldlM_cons] at hpanic
    cases hnext : Tunnel.stepAt c t e with
    | ok next =>
      rw [hnext] at hstep hpanic
      exact ih hcourse hstep hpanic
    | error halt =>
      rw [hnext] at hstep hpanic
      obtain rfl := Except.error.inj hpanic
      exact hstep

theorem due_of_launch {course : List (Nat × Event)} (htimely : Timely horizon course) {p : Panic}
    (h : launch c course = .error (.panicked p)) : p.Due c horizon := by
  by_cases hchannel : c.requestQueue ≤ channelLimit
  · rw [launch_of_le hchannel] at h
    exact Wound.due hchannel htimely.2 (fun hbegun => absurd rfl hbegun) h
  · unfold launch at h
    rw [channelHazard?_requestCapacity, if_pos (by omega)] at h
    obtain rfl := Halt.panicked.inj (Except.error.inj h)
    exact Nat.lt_of_not_le hchannel

theorem launch_eq_run (h : Harmless c horizon) {course : List (Nat × Event)}
    (htimely : Timely horizon course) :
    launch c course = match (Tunnel.ofCapacity c.outboundQueue).run (course.map Prod.snd) with
      | some t => .ok t
      | none => .error .impossible := by
  rw [launch_of_le h.request]
  generalize Tunnel.ofCapacity c.outboundQueue = t
  have hcourse := htimely.2
  clear htimely
  induction course generalizing t with
  | nil => rfl
  | cons e course ih =>
    obtain ⟨hnow, hcourse⟩ := List.forall_mem_cons.mp hcourse
    rw [List.foldlM_cons, stepAt_of_harmless h hnow, List.map_cons, run, List.foldlM_cons]
    cases hstep : t.step? e.2 with
    | none => rfl
    | some next => exact ih next hcourse

/-- The first dial panics if its clock cannot be made. -/
theorem launch_start (hchannel : c.requestQueue ≤ channelLimit) {hazard : Hazard}
    (hclock : clockHazard? now c.reconnectSecs = some hazard) :
    launch c [(now, .start)] = .error (.panicked (.dialClock hazard)) := by
  rw [launch_of_le hchannel]
  simp [stepAt, step?, Tunnel.ofCapacity, panic?, hclock, bind, Except.bind]

/-- The first connection panics if its clock cannot be made. -/
theorem launch_dialed (hchannel : c.requestQueue ≤ channelLimit) {hazard : Hazard}
    (hfirst : clockHazard? 0 c.reconnectSecs = none)
    (hclock : c.heartbeat?.bind (clockHazard? now) = some hazard) :
    launch c [(0, .start), (now, .dialed)] = .error (.panicked (.heartbeatClock hazard)) := by
  have hdial : stepAt c (Tunnel.ofCapacity c.outboundQueue) (0, .start) =
      .ok (Tunnel.ofCapacity c.outboundQueue).dial := by
    simp [stepAt, step?, Tunnel.ofCapacity, panic?, hfirst]
  have hphase : (Tunnel.ofCapacity c.outboundQueue).dial.phase = .dialing := rfl
  rw [launch_of_le hchannel, List.foldlM_cons, hdial]
  simp [stepAt, step?, hphase, panic?, hclock, bind, Except.bind]

theorem exists_course (hrange : c.InRange) {p : Panic} (h : p.Due c horizon) :
    ∃ course, Timely horizon course ∧ launch c course = .error (.panicked p) := by
  have hat : ∀ now ≤ horizon, Timely horizon [(now, .start)] := fun now hnow =>
    ⟨List.pairwise_singleton _ _, by simpa using hnow⟩
  unfold Panic.Due at h
  split at h
  case h_1 =>
    refine ⟨[], ⟨.nil, List.forall_mem_nil _⟩, ?_⟩
    unfold launch
    rw [channelHazard?_requestCapacity, if_pos h]
  case h_2 =>
    refine ⟨_, hat 0 (Nat.zero_le _), launch_start h.1 ?_⟩
    rw [clockHazard?, if_pos h.2]
  case h_3 =>
    refine ⟨_, hat horizon (Nat.le_refl _), launch_start h.1 ?_⟩
    rw [clockHazard?, if_neg (by omega), if_pos h.2.2]
  case h_4 =>
    obtain ⟨hchannel, hpos, hsome, hlate⟩ := h
    have hfirst : clockHazard? 0 c.reconnectSecs = none :=
      clockHazard?_eq_none_iff.mpr ⟨hpos, (Nat.zero_add _).symm ▸ hrange.reconnect⟩
    refine ⟨[(0, .start), (horizon, .dialed)], ⟨by simp, by simp⟩, launch_dialed hchannel hfirst ?_⟩
    rw [Transport.heartbeat?, if_neg (by omega), Option.bind_some, clockHazard?,
      if_neg (by omega), if_pos hlate]
  case h_5 => exact h.elim

theorem harmless_iff_not_due : Harmless c horizon ↔ ∀ p : Panic, ¬ p.Due c horizon := by
  constructor
  · intro h p hdue
    have hrequest := h.request
    have hreconnect := h.reconnect
    have hdial := h.dial
    have hheartbeat := h.heartbeat
    unfold Panic.Due at hdue
    split at hdue
    all_goals omega
  · intro hnone
    have hrequest : c.requestQueue ≤ channelLimit :=
      Nat.le_of_not_lt (hnone (.requestChannel .channelTooLarge))
    have hreconnect : 0 < c.reconnectSecs :=
      Nat.pos_of_ne_zero fun hzero => hnone (.dialClock .zeroPeriod) ⟨hrequest, hzero⟩
    have hdial : horizon + c.reconnectSecs ≤ lastSecond :=
      Nat.le_of_not_lt fun hlate => hnone (.dialClock .tickBeyondTime) ⟨hrequest, hreconnect, hlate⟩
    refine ⟨hrequest, hreconnect, hdial, Nat.le_of_not_lt fun hlate => ?_⟩
    exact hnone (.heartbeatClock .tickBeyondTime) ⟨hrequest, hreconnect, by omega, hlate⟩

/-- **A loaded configuration brings a tunnel down only at the ends of its ranges, and there it
    does.**  Its four numbers are words, and a file can give any words.  Up to a certain second a
    launched tunnel can meet just those panics that are due: one for a channel that is too large, one
    for a clock without a period between dials, and one for a clock whose first tick lies beyond
    time.  There is none for zero heartbeats, for an empty channel or for any outbound queue.  So
    whatever happens up to then nothing panics exactly if nothing stands against the agent at that
    second, and then the tunnel does what a tunnel does. -/
theorem launch_panics_at_range_ends {read : String → Except Files.Fault (List UInt8)}
    {env : String → Option String} {path : Option String} {config : Config}
    (hload : Config.load read env path = .ok config) (horizon : Nat) :
    config.transport.InRange ∧
    (∀ t : Transport, t.InRange →
      Config.ofEntries t.entries = .ok { Config.default with transport := t }) ∧
    (∀ p : Panic, (∃ course, Timely horizon course ∧
      launch config.transport course = .error (.panicked p)) ↔ p.Due config.transport horizon) ∧
    ((∀ course, Timely horizon course → ∀ p, launch config.transport course ≠ .error (.panicked p)) ↔
      Harmless config.transport horizon) ∧
    (hazards horizon config.transport = [] ↔ Harmless config.transport horizon) ∧
    (Harmless config.transport horizon → ∀ course, Timely horizon course →
      launch config.transport course =
        match (Tunnel.ofCapacity config.transport.outboundQueue).run (course.map Prod.snd) with
        | some t => .ok t
        | none => .error .impossible) := by
  have hrange := Config.inRange_of_load hload
  have hdue : ∀ p : Panic, (∃ course, Timely horizon course ∧
      launch config.transport course = .error (.panicked p)) ↔ p.Due config.transport horizon :=
    fun p => ⟨fun ⟨_, htimely, hpanic⟩ => due_of_launch htimely hpanic, exists_course hrange⟩
  refine ⟨hrange, fun _ => Config.ofEntries_entries, hdue, ?_, hazards_eq_nil_iff,
    fun hharmless course => launch_eq_run hharmless⟩
  rw [harmless_iff_not_due]
  constructor
  · intro hnone p hp
    obtain ⟨course, htimely, hpanic⟩ := exists_course hrange hp
    exact hnone course htimely p hpanic
  · exact fun hnone course htimely p hpanic => hnone p (due_of_launch htimely hpanic)

/-- A file that asks for heartbeats that never come due. -/
def patient : String :=
  "[transport]\nheartbeat_interval_secs = 9223372036854775807\n"

/-- At second 0 nothing panics, and from the next second on a connection does. -/
theorem launch_panics_at_range_ends_of_patient :
    ∃ config, Config.load (fun _ => .ok patient.toUTF8.toList) (fun _ => none) none = .ok config ∧
      (∀ course, Timely 0 course → ∀ p, launch config.transport course ≠ .error (.panicked p)) ∧
      ∃ course, Timely 1 course ∧
        launch config.transport course = .error (.panicked (.heartbeatClock .tickBeyondTime)) := by
  have hload : Config.load (fun _ => .ok patient.toUTF8.toList) (fun _ => none) none =
      .ok { Config.default with transport := ⟨5, lastSecond, 1024, 256⟩ } := by
    decide +kernel
  obtain ⟨-, -, -, hnone, -⟩ := launch_panics_at_range_ends hload 0
  obtain ⟨-, -, hdue, -⟩ := launch_panics_at_range_ends hload 1
  refine ⟨_, hload, hnone.mpr (by constructor <;> decide +kernel), (hdue _).mpr ?_⟩
  refine ⟨?_, ?_, ?_, ?_⟩ <;> decide +kernel

/-- A file that asks for further dials without any delay. -/
def hasty : String :=
  "[transport]\nreconnect_interval_secs = 0\n"

/-- The configuration is accepted, and the first dial brings the tunnel down. -/
theorem zero_reconnect_interval_panics :
    ∃ config, Config.load (fun _ => .ok hasty.toUTF8.toList) (fun _ => none) none = .ok config ∧
      launch config.transport [(1, .start)] = .error (.panicked (.dialClock .zeroPeriod)) := by
  refine ⟨{ Config.default with transport := ⟨0, 30, 1024, 256⟩ }, ?_, rfl⟩
  decide +kernel

end ClusterAgent.Tunnel
