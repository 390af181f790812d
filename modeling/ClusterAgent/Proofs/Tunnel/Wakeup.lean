/-
  ClusterAgent/Proofs/Tunnel/Wakeup.lean
  ======================================
  **No wakeup is lost.**

  The push into the queue and the ring are two steps, several rings may count as one, and
  the writer may go away between being woken and noticing it.  Still the writer never
  sleeps on over an envelope.  Every ring since it last found the queue empty either ends
  its wait or is there to end it, so if there is something in the queue again then the bell
  has rung, or a producer is still to ring it (`Attentive`).

  Nothing is asked of a bell whose listener goes away in the middle of a wait.  The writer
  looks into the queue before it waits again, so it does not need the ring it left behind.
-/
import ClusterAgent.Proofs.Outbound
import ClusterAgent.Tunnel.Wakeup

namespace ClusterAgent.Tunnel

variable {σ : Type} {bell : Bell σ}

/-! ### What the writer relies on -/

/-- There is a ring that has not ended a wait yet. -/
def Bell.HasRung (bell : Bell σ) (s : σ) : Prop :=
  bell.hasStored s = true ∨ bell.waiter s = .woken

/-- A ring wakes whoever is asleep, and is stored if nobody is.  A wait ends when there has been a
    ring; one that goes on does so asleep, with no ring stored. -/
structure Bell.Lawful (bell : Bell σ) : Prop where
  ring_asleep : ∀ s, bell.waiter s = .asleep → bell.waiter (bell.ring s) = .woken
  ring_awake : ∀ s, bell.waiter s ≠ .asleep →
    bell.hasStored (bell.ring s) = true ∧ bell.waiter (bell.ring s) = bell.waiter s
  ask_rung : ∀ s, bell.HasRung s → (bell.ask s).1 = true
  ask_waits : ∀ s, (bell.ask s).1 = false →
    bell.waiter (bell.ask s).2 = .asleep ∧ bell.hasStored (bell.ask s).2 = false

theorem Chime.lawful_bell : Chime.bell.Lawful where
  ring_asleep s h := by
    cases s with
    | waited => rfl
    | silent | stored | woken => cases h
  ring_awake s h := by
    cases s with
    | waited => exact absurd rfl h
    | silent | stored | woken => exact ⟨rfl, rfl⟩
  ask_rung s h := by
    rcases s with _ | _ | _ | isStored
    · rcases h with h | h <;> cases h
    · rfl
    · rcases h with h | h <;> cases h
    · cases isStored <;> rfl
  ask_waits s h := by
    rcases s with _ | _ | _ | isStored
    · exact ⟨rfl, rfl⟩
    · cases h
    · exact ⟨rfl, rfl⟩
    · cases isStored <;> cases h

theorem Bell.Lawful.hasRung_ring (hbell : bell.Lawful) (s : σ) : bell.HasRung (bell.ring s) := by
  by_cases hasleep : bell.waiter s = .asleep
  · exact .inr (hbell.ring_asleep s hasleep)
  · exact .inl (hbell.ring_awake s hasleep).1

namespace Handover

variable {h h' : Handover σ} {event : Event}

/-! ### What a step does -/

/-- What can happen, and what it changes. -/
inductive Step (bell : Bell σ) (h : Handover σ) : Event → Handover σ → Prop where
  | queue (p : Nat) (e : Envelope) (hdone : p ∉ h.ringing) :
      Step bell h (.queue p e) { h with outbound := h.outbound.send e, ringing := p :: h.ringing }
  | ring (p : Nat) (hdue : p ∈ h.ringing) :
      Step bell h (.ring p) { h with bell := bell.ring h.bell, ringing := h.ringing.erase p }
  | come (haway : h.listener = .away) : Step bell h .come { h with listener := .looking }
  | take {e : Envelope} {rest : List Envelope} (hlooks : h.listener = .looking)
      (hqueue : h.outbound.queue = e :: rest) :
      Step bell h .look { h with outbound := { h.outbound with queue := rest }, listener := .away }
  | turn (hlooks : h.listener = .looking) (hqueue : h.outbound.queue = []) :
      Step bell h .look { h with listener := .turning }
  | notice (hturned : h.HasTurned) (hover : (bell.ask h.bell).1 = true) :
      Step bell h .ask { h with bell := (bell.ask h.bell).2, listener := .looking }
  | wait (hturned : h.HasTurned) (hgoesOn : (bell.ask h.bell).1 = false) :
      Step bell h .ask { h with bell := (bell.ask h.bell).2, listener := .waiting }
  | leave (hlistener : h.listener = .looking ∨ h.listener = .turning) :
      Step bell h .leave { h with listener := .away }
  | abandon (hwaits : h.listener = .waiting) :
      Step bell h .leave { h with bell := bell.abandon h.bell, listener := .away }

theorem Step.step? (hstep : Step bell h event h') :
    h.step? bell event = some h' := by
  cases hstep with
  | queue p e hdone => exact if_neg hdone
  | ring p hdue => exact if_pos hdue
  | come haway => exact if_pos haway
  | take hlooks hqueue => simp only [step?, if_pos hlooks, Outbound.receive?, hqueue]
  | turn hlooks hqueue => simp only [step?, if_pos hlooks, Outbound.receive?, hqueue]
  | notice hturned hover => simp only [step?, if_pos hturned, hover, if_true]
  | wait hturned hgoesOn => simp [step?, if_pos hturned, hgoesOn]
  | leave hlistener =>
    rcases hlistener with hlistener | hlistener
    all_goals simp only [step?, hlistener]
  | abandon hwaits => simp only [step?, hwaits]

theorem step_of_step? (hstep : h.step? bell event = some h') :
    Step bell h event h' := by
  cases event with
  | queue p e =>
    obtain ⟨hdone, heq⟩ := Option.ite_none_left_eq_some.mp hstep
    cases heq
    exact .queue p e hdone
  | ring p =>
    obtain ⟨hdue, heq⟩ := Option.ite_none_right_eq_some.mp hstep
    cases heq
    exact .ring p hdue
  | come =>
    obtain ⟨haway, heq⟩ := Option.ite_none_right_eq_some.mp hstep
    cases heq
    exact .come haway
  | look =>
    obtain ⟨hlooks, heq⟩ := Option.ite_none_right_eq_some.mp hstep
    rcases hqueue : h.outbound.queue with _ | ⟨e, rest⟩
    all_goals simp only [Outbound.receive?, hqueue] at heq; cases heq
    · exact .turn hlooks hqueue
    · exact .take hlooks hqueue
  | ask =>
    obtain ⟨hturned, heq⟩ := Option.ite_none_right_eq_some.mp hstep
    cases hanswer : (bell.ask h.bell).1
    all_goals simp only [hanswer] at heq; cases heq
    · exact .wait hturned hanswer
    · exact .notice hturned hanswer
  | leave =>
    rcases hlistener : h.listener with _ | _ | _ | _
    all_goals simp only [step?, hlistener] at hstep; cases hstep
    · exact .leave (.inl hlistener)
    · exact .leave (.inr hlistener)
    · exact .abandon hlistener

/-! ### What every step keeps -/

/-- If the writer has turned away and there is something in the queue, then it will be called back.
    While it waits it is either being woken or asleep, and no ring is stored that it would miss. -/
structure Attentive (bell : Bell σ) (h : Handover σ) : Prop where
  called : h.HasTurned → h.outbound.queue ≠ [] → bell.HasRung h.bell ∨ ∃ p, p ∈ h.ringing
  listens : h.listener = .waiting → bell.waiter h.bell = .woken ∨
    bell.waiter h.bell = .asleep ∧ bell.hasStored h.bell = false

/-- Nothing is asked for a writer that is about to look into the queue or has gone away. -/
theorem attentive_of_not_hasTurned (h : Handover σ) (hfacing : ¬ h.HasTurned) :
    Attentive bell h where
  called hturned := absurd hturned hfacing
  listens hwaits := absurd (.inr hwaits) hfacing

theorem Attentive.step (hbell : bell.Lawful) (hh : Attentive bell h)
    (hstep : Step bell h event h') : Attentive bell h' := by
  cases hstep with
  | queue p e =>
    -- the envelope may be one that the writer does not know of, but its producer is still to ring
    exact ⟨fun _ _ => .inr ⟨p, List.mem_cons_self⟩, hh.listens⟩
  | ring p =>
    constructor
    · intro _ _
      exact .inl (hbell.hasRung_ring h.bell)
    · intro hwaits
      left
      rcases hh.listens hwaits with hwoken | ⟨hasleep, -⟩
      · have hawake : bell.waiter h.bell ≠ .asleep := by
          rw [hwoken]
          decide
        exact (hbell.ring_awake h.bell hawake).2.trans hwoken
      · exact hbell.ring_asleep h.bell hasleep
  | turn hlooks hqueue => exact ⟨fun _ hfull => absurd hqueue hfull, nofun⟩
  | wait hturned hgoesOn =>
    -- a wait that goes on had no ring to end it, so whoever has queued has not rung
    have hsilent : ¬ bell.HasRung h.bell := by
      intro hrung
      rw [hbell.ask_rung h.bell hrung] at hgoesOn
      cases hgoesOn
    constructor
    · intro _ hfull
      rcases hh.called hturned hfull with hrung | hringing
      · exact absurd hrung hsilent
      · exact .inr hringing
    · intro _
      exact .inr (hbell.ask_waits h.bell hgoesOn)
  | come | take | notice | leave | abandon =>
    apply attentive_of_not_hasTurned
    rintro (hturned | hturned) <;> cases hturned

theorem attentive_run (hbell : bell.Lawful) {events : List Event} (hh : Attentive bell h)
    (hrun : h.run bell events = some h') : Attentive bell h' := by
  induction events generalizing h with
  | nil =>
    cases hrun
    exact hh
  | cons event events ih =>
    obtain ⟨next, hstep, hrest⟩ := Option.bind_eq_some_iff.mp hrun
    exact ih (hh.step hbell (step_of_step? hstep)) hrest

theorem attentive_start (bell : Bell σ) (capacity : Nat) : Attentive bell (start bell capacity) := by
  apply attentive_of_not_hasTurned
  rintro (hturned | hturned) <;> cases hturned

/-! ### What a ring leads to -/

/-- Whether a producer does it, not the writer. -/
def Event.isProduction : Event → Bool
  | .queue _ _ | .ring _ => true
  | .come | .look | .ask | .leave => false

/-- These steps can be taken, and they give the writer the oldest envelope of the queue. -/
def GivesOldest (bell : Bell σ) (h : Handover σ) (events : List Event) : Prop :=
  ∃ e rest h', h.outbound.queue = e :: rest ∧ h.run bell events = some h' ∧
    h'.outbound = { h.outbound with queue := rest } ∧ h'.listener = .away

/-- The writer has turned away, and both an envelope and a ring wait for it. -/
structure Called (bell : Bell σ) (h : Handover σ) : Prop where
  turned : h.HasTurned
  queue : h.outbound.queue ≠ []
  rung : bell.HasRung h.bell

theorem Called.givesOldest (hbell : bell.Lawful) (hh : Called bell h) :
    h.GivesOldest bell [.ask, .look] := by
  obtain ⟨e, rest, hqueue⟩ := List.exists_cons_of_ne_nil hh.queue
  have hnotice : Step bell h .ask _ := .notice hh.turned (hbell.ask_rung h.bell hh.rung)
  have htake : Step bell { h with bell := (bell.ask h.bell).2, listener := .looking } .look _ :=
    .take rfl hqueue
  have hrun : h.run bell [.ask, .look] = some _ :=
    Option.bind_eq_some_iff.mpr
      ⟨_, hnotice.step?, Option.bind_eq_some_iff.mpr ⟨_, htake.step?, rfl⟩⟩
  exact ⟨e, rest, _, hqueue, hrun, rfl, rfl⟩

/-- What a producer does leaves the writer where it is, and takes no ring away. -/
theorem Step.production (hbell : bell.Lawful) (hstep : Step bell h event h')
    (hproduction : event.isProduction = true) :
    h'.listener = h.listener ∧ (h.outbound.queue ≠ [] → h'.outbound.queue ≠ []) ∧
      (bell.HasRung h.bell ∨ (∃ p, event = .ring p) → bell.HasRung h'.bell) := by
  cases hstep with
  | queue p e =>
    refine ⟨rfl, fun _ => h.outbound.send_queue_ne_nil e, ?_⟩
    rintro (hrung | ⟨q, hq⟩)
    · exact hrung
    · cases hq
  | ring p => exact ⟨rfl, id, fun _ => hbell.hasRung_ring h.bell⟩
  | come | take | turn | notice | wait | leave | abandon => cases hproduction

/-- However many rings there are after the first one, the writer stays called. -/
theorem called_run (hbell : bell.Lawful) {events : List Event}
    (hproduction : ∀ event ∈ events, event.isProduction = true) (hturned : h.HasTurned)
    (hqueue : h.outbound.queue ≠ []) (hrun : h.run bell events = some h')
    (hrung : bell.HasRung h.bell ∨ ∃ p, .ring p ∈ events) : Called bell h' := by
  induction events generalizing h with
  | nil =>
    cases hrun
    rcases hrung with hrung | ⟨p, hp⟩
    · exact ⟨hturned, hqueue, hrung⟩
    · cases hp
  | cons event events ih =>
    obtain ⟨next, hnext, hrest⟩ := Option.bind_eq_some_iff.mp hrun
    obtain ⟨hsame, hfull, hkeeps⟩ := (step_of_step? hnext).production hbell
      (hproduction event List.mem_cons_self)
    have hlater : ∀ event ∈ events, event.isProduction = true :=
      fun event hevent => hproduction event (List.mem_cons_of_mem _ hevent)
    have hturned' : next.HasTurned := by
      rw [HasTurned, hsame]
      exact hturned
    apply ih hlater hturned' (hfull hqueue) hrest
    rcases hrung with hrung | ⟨p, hp⟩
    · exact .inl (hkeeps (.inl hrung))
    · rcases List.mem_cons.mp hp with heq | hp
      · exact .inl (hkeeps (.inr ⟨p, heq.symm⟩))
      · exact .inr ⟨p, hp⟩

/-- **No wakeup is lost.**  However producers and writer interleave, and wherever the writer has gone
    away and come back: if it waits and there is something in the queue, then a ring is stored, or
    it is being woken, or a producer has queued and not rung yet.  More exactly it is being woken,
    or it is asleep, no ring is stored, and there is such a producer.  Whatever producers do from
    then on, as soon as there has been a ring the writer notices it and gets the oldest envelope. -/
theorem no_wakeup_is_lost (hbell : bell.Lawful) {capacity : Nat} {events : List Event}
    (hrun : (start bell capacity).run bell events = some h) (hwaits : h.listener = .waiting)
    (hqueue : h.outbound.queue ≠ []) :
    (bell.hasStored h.bell = true ∨ bell.waiter h.bell = .woken ∨ ∃ p, p ∈ h.ringing) ∧
      (bell.waiter h.bell = .woken ∨ bell.waiter h.bell = .asleep ∧
        bell.hasStored h.bell = false ∧ ∃ p, p ∈ h.ringing) ∧
      ∀ more later, (∀ event ∈ more, event.isProduction = true) → h.run bell more = some later →
        (bell.HasRung h.bell ∨ ∃ p, .ring p ∈ more) → later.GivesOldest bell [.ask, .look] := by
  have hh : Attentive bell h := attentive_run hbell (attentive_start bell capacity) hrun
  have hturned : h.HasTurned := .inr hwaits
  have hcalled := hh.called hturned hqueue
  refine ⟨?_, ?_, ?_⟩
  · rcases hcalled with (hstored | hwoken) | hringing
    · exact .inl hstored
    · exact .inr (.inl hwoken)
    · exact .inr (.inr hringing)
  · rcases hh.listens hwaits with hwoken | ⟨hasleep, hnone⟩
    · exact .inl hwoken
    · refine .inr ⟨hasleep, hnone, ?_⟩
      rcases hcalled with (hstored | hwoken) | hringing
      · rw [hnone] at hstored
        cases hstored
      · rw [hasleep] at hwoken
        cases hwoken
      · exact hringing
  · intro more later hproduction hmore hrung
    exact (called_run hbell hproduction hturned hqueue hmore hrung).givesOldest hbell

/-- The writer goes away while it is being woken, comes back, uses up the ring it left behind and
    falls asleep again.  Then two producers queue, the second one in the place of the first, and
    neither has rung yet; one of them rings while a third one queues. -/
theorem no_wakeup_is_lost_after_interruption :
    let envelope := fun id : String => Envelope.log id []
    let events : List Event :=
      [.come, .look, .ask, .queue 0 (envelope "a"), .ring 0, .leave, .come, .look, .come, .look,
        .ask, .look, .ask, .queue 1 (envelope "b"), .queue 2 (envelope "c")]
    let h : Handover Chime := ⟨⟨1, [envelope "c"], 1⟩, .waited, .waiting, [2, 1]⟩
    let more : List Event := [.ring 1, .queue 3 (envelope "d"), .ring 2]
    let later : Handover Chime := ⟨⟨1, [envelope "d"], 2⟩, .woken true, .waiting, [3]⟩
    Chime.bell.Lawful ∧ (start Chime.bell 1).run Chime.bell events = some h ∧
      h.listener = .waiting ∧ h.outbound.queue ≠ [] ∧
      (h.bell.hasStored = true ∨ h.bell.waiter = .woken ∨ ∃ p, p ∈ h.ringing) ∧
      h.run Chime.bell more = some later ∧ later.GivesOldest Chime.bell [.ask, .look] := by
  intro envelope events h more later
  have hrun : (start Chime.bell 1).run Chime.bell events = some h := rfl
  have hqueue : h.outbound.queue ≠ [] := List.cons_ne_nil _ _
  have hmore : h.run Chime.bell more = some later := rfl
  obtain ⟨hcalled, -, hgives⟩ := no_wakeup_is_lost Chime.lawful_bell hrun rfl hqueue
  exact ⟨Chime.lawful_bell, hrun, rfl, hqueue, hcalled, hmore,
    hgives more later (by decide) hmore (.inr ⟨1, List.mem_cons_self⟩)⟩

end Handover

end ClusterAgent.Tunnel
