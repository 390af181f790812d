/-
  ClusterAgent/Proofs/Agent/Requests.lean
  =======================================
  **Every request is answered once, and rightly.**

  `Serving` is the invariant of the whole world: at every moment each request that was
  taken is at a stage that fits its own handler, its task has done what belongs to
  that stage, and it goes on by itself.  No step of another task, no frame that
  holds no request, no stop and nothing that happens outside touches this.

  From it follows that the replies are, once the tasks are done and up to their order, one
  for each request that was taken.
-/
import ClusterAgent.Proofs.Agent.Serving
import ClusterAgent.Proofs.Agent.World
import ClusterAgent.Proofs.Outbound
import ClusterAgent.Proofs.Registration

namespace ClusterAgent.Agent

open Handler (Outcome Program ShellNumber)

variable {σ : Type}

/-! ### Replies -/

/-- Whether an envelope is the reply to a request. -/
def isReply (e : Envelope) : Bool :=
  e.channel = .request

def Deed.reply? (d : Deed) : Option Envelope :=
  d.envelope?.filter isReply

def Served.reply? (s : Served) : Option Envelope :=
  match s.stage with
  | .answered answer => some (Envelope.response s.request.requestId answer)
  | _ => none

/-- What the task of a request has done holds its reply and no other. -/
theorem filterMap_history (handler? : Option Handler) (s : Served) :
    (history handler? s.request s.stage).filterMap Deed.reply? = s.reply?.toList := by
  obtain ⟨r, stage, answeredAt⟩ := s
  cases stage with
  | answered answer =>
    cases handler? <;> rfl
  | received => rfl
  | running => rfl
  | delivering => rfl
  | finished => rfl

theorem deeds_stepHandler (a : Agent σ) (n : Nat) : (a.stepHandler n).deeds = [] := by
  unfold stepHandler ask hand
  repeat' split
  all_goals rfl

theorem reply?_stepShell (a : Agent σ) (n : ShellNumber) :
    ∀ d ∈ (a.stepShell n).deeds, d.reply? = none := by
  unfold stepShell claimShell openShell turnShell releaseShell
  repeat' split
  all_goals
    intro d hd
    simp only [goes, rests, List.mem_cons, List.mem_flatMap, List.not_mem_nil, or_false] at hd
  all_goals grind [Deed.reply?, Deed.envelope?, isReply, Envelope.exec, Envelope.chunk]

theorem reply?_stepLog (prefersStream : Bool) (a : Agent σ) (n : Nat) :
    ∀ d ∈ (stepLog prefersStream a n).deeds, d.reply? = none := by
  unfold stepLog claimLog openLog readLog releaseLog
  repeat' split
  all_goals
    intro d hd
    simp only [goes, rests, List.mem_cons, List.not_mem_nil, or_false] at hd
  all_goals grind [Deed.reply?, Deed.envelope?, isReply, Envelope.log, Envelope.chunk]

/-! ### The invariant -/

/-- Request `n` has come to `s` as it should. -/
structure Stands (registry : Registry Handler) (w : World σ) (n : Nat) (s : Served) : Prop where
  sound : Sound (registry.lookup s.request.resource s.request.action) s.request s.stage
  awaited : Awaited w.agent n s.stage
  deeds : w.deedsOf (.request n) =
    history (registry.lookup s.request.resource s.request.action) s.request s.stage

/-- As long as nothing was evicted, the replies that came into the queue are those that were
    sent. -/
def KeepsReplies (w : World σ) : Prop :=
  w.agent.outbound.dropped = 0 → w.queued.filter isReply = w.sent.filter isReply

/-- Every request that was taken is served as it should be. -/
structure Serving (registry : Registry Handler) (w : World σ) : Prop where
  sameRegistry : w.agent.registry = registry
  stands : ∀ (n : Nat) (s : Served), w.agent.requests[n]? = some s → Stands registry w n s
  idle : ∀ n : Nat, w.agent.requests[n]? = none → w.deedsOf (.request n) = []
  silent : ∀ t, (∀ n, t ≠ .request n) → ∀ d ∈ w.deedsOf t, d.reply? = none
  queue : KeepsReplies w

variable {registry : Registry Handler}

theorem serving_start (client : Cluster.Client σ) (cluster : σ) (capacity tail : Nat) :
    Serving registry (World.start registry client cluster capacity tail) where
  sameRegistry := rfl
  stands _ _ h := by cases h
  idle _ _ := rfl
  silent _ _ _ h := by cases h
  queue _ := rfl

/-- What leaves the requests alone and is no deed of a task keeps the invariant, if it keeps the
    replies. -/
theorem Serving.of_keeps {w w' : World σ} (h : Serving registry w)
    (hregistry : w'.agent.registry = w.agent.registry)
    (hrequests : w'.agent.requests = w.agent.requests) (hkeeps : Keeps w.agent w'.agent)
    (hj : w'.journal = w.journal) (hqueue : KeepsReplies w') : Serving registry w' := by
  have hdeeds : ∀ t, w'.deedsOf t = w.deedsOf t := by
    intro t
    unfold World.deedsOf
    rw [hj]
  refine ⟨hregistry.trans h.sameRegistry, ?_, ?_, ?_, hqueue⟩
  · intro n s hs
    have hstands := h.stands n s (hrequests ▸ hs)
    exact ⟨hstands.sound, hstands.awaited.keep hkeeps, (hdeeds _).trans hstands.deeds⟩
  · intro n hn
    rw [hdeeds]
    exact h.idle n (hrequests ▸ hn)
  · intro t ht d hd
    exact h.silent t ht d (hdeeds t ▸ hd)

theorem KeepsReplies.of_eq {w w' : World σ} (h : KeepsReplies w)
    (ho : w'.agent.outbound = w.agent.outbound) (hj : w'.journal = w.journal)
    (hd : w'.departed = w.departed) : KeepsReplies w' := by
  intro hdropped
  rw [ho] at hdropped
  have hbefore := h hdropped
  unfold World.queued World.sent at hbefore ⊢
  rw [ho, hd, hj]
  exact hbefore

/-! ### Steps of tasks -/

theorem requests_after (p : Progress σ) (t : Task) :
    (p.after t).requests = p.agent.requests := by
  unfold Progress.after
  split
  all_goals rfl

theorem registry_after (p : Progress σ) (t : Task) :
    (p.after t).registry = p.agent.registry := by
  unfold Progress.after
  split
  all_goals rfl

theorem outbound_after (p : Progress σ) (t : Task) :
    (p.after t).outbound = p.agent.outbound.sendAll (p.deeds.filterMap Deed.envelope?) := by
  unfold Progress.after
  split
  all_goals rfl

theorem reply?_stepOf (a : Agent σ) {t : Task} (ht : ∀ n, t ≠ .request n) (prefersStream : Bool) :
    ∀ d ∈ (a.stepOf prefersStream t).deeds, d.reply? = none := by
  cases t with
  | request n => exact absurd rfl (ht n)
  | handler n =>
    intro d hd
    rw [show (a.stepOf prefersStream (.handler n)).deeds = [] from deeds_stepHandler _ n] at hd
    cases hd
  | shell n => exact reply?_stepShell _ n
  | log n => exact reply?_stepLog prefersStream _ n

/-- A request stands as it should after a step of one of its own tasks. -/
theorem Stands.own {w w' : World σ} {t : Task} {p : Progress σ} {n : Nat} {s s' : Served}
    (h : Stands registry w n s) (hregistry : w.agent.registry = registry)
    (hagent : w'.agent = p.after t)
    (hdeeds : w'.deedsOf (.request n) = w.deedsOf (.request n) ++ p.deeds)
    (hserves : Serves { w.agent with ready := w.agent.ready.erase t } t n s s' p) :
    Stands registry w' n s' := by
  have hsound := hserves.sound
  dsimp only at hsound
  rw [hregistry] at hsound
  obtain ⟨hnew, hhist⟩ := hsound h.sound
  refine ⟨?_, ?_, ?_⟩
  · rw [hserves.request]
    exact hnew
  · rw [hagent]
    exact hserves.awaited
  · rw [hserves.request, hhist, hdeeds, h.deeds]

/-- A request stands as it did after a step of a task of somebody else. -/
theorem Stands.others {w w' : World σ} {t : Task} {p : Progress σ} {n : Nat} {s : Served}
    (h : Stands registry w n s) (hagent : w'.agent = p.after t)
    (hdeeds : w'.deedsOf (.request n) = w.deedsOf (.request n))
    (hkeeps : Keeps { w.agent with ready := w.agent.ready.erase t } p.agent)
    (hr : t ≠ .request n) (hh : t ≠ .handler n) : Stands registry w' n s := by
  refine ⟨h.sound, ?_, hdeeds.trans h.deeds⟩
  rw [hagent]
  refine (h.awaited.erase ?_).keep (hkeeps.trans (keeps_after p t))
  cases hstage : s.stage <;> simp [Stage.owner?, hr.symm, hh.symm]

theorem KeepsReplies.send {w w' : World σ} {t : Task} {p : Progress σ} (h : KeepsReplies w)
    (hagent : w'.agent = p.after t) (ho : p.agent.outbound = w.agent.outbound)
    (hj : w'.journal = w.journal ++ p.deeds.map (t, ·)) (hd : w'.departed = w.departed) :
    KeepsReplies w' := by
  intro hdropped
  have hout : w'.agent.outbound =
      w.agent.outbound.sendAll (p.deeds.filterMap Deed.envelope?) := by
    rw [hagent, outbound_after, ho]
  have hsent : (p.deeds.map (t, ·)).filterMap (·.2.envelope?) =
      p.deeds.filterMap Deed.envelope? := by
    rw [List.filterMap_map]
    rfl
  rw [hout] at hdropped
  obtain ⟨hzero, hqueue⟩ := Outbound.sendAll_of_dropped_eq_zero hdropped
  have hbefore := h hzero
  unfold World.queued World.sent at hbefore ⊢
  rw [hout, hqueue, hd, hj, List.filterMap_append, hsent, ← List.append_assoc, List.filter_append,
    hbefore, List.filter_append]

theorem Serving.runTask {w : World σ} (h : Serving registry w) (t : Task) (prefersStream : Bool) :
    Serving registry (w.runTask t prefersStream) := by
  by_cases ht : t ∈ w.agent.ready
  case neg =>
    unfold World.runTask
    rw [if_neg ht]
    exact h
  have hdeeds := w.deedsOf_runTask ht prefersStream
  obtain ⟨hagent, hj, hd⟩ := w.runTask_ready ht prefersStream
  have heffect := effect_stepOf t prefersStream fun n s hs => (h.stands n s hs).awaited
  refine ⟨?_, ?_, ?_, ?_, h.queue.send hagent heffect.outbound hj hd⟩
  · rw [hagent, registry_after]
    exact heffect.registry.trans h.sameRegistry
  · intro n s' hs'
    rw [hagent, requests_after] at hs'
    cases hs : w.agent.requests[n]? with
    | none =>
      rw [(heffect.absent n hs).1] at hs'
      cases hs'
    | some s =>
      have hstands := h.stands n s hs
      by_cases hown : t = .request n ∨ t = .handler n
      · obtain ⟨s₁, hserves⟩ := heffect.own n s hown hs
        rw [hserves.requests n, if_pos rfl] at hs'
        obtain rfl := Option.some.inj hs'
        refine hstands.own h.sameRegistry hagent ?_ hserves
        rw [hdeeds]
        rcases hown with rfl | rfl
        · rw [if_pos rfl]
        · rw [show (w.agent.stepOf prefersStream (.handler n)).deeds = [] from
            deeds_stepHandler _ n]
          simp
      · obtain ⟨hr, hh⟩ := not_or.mp hown
        rw [heffect.others n hr hh, hs] at hs'
        obtain rfl := Option.some.inj hs'
        refine hstands.others hagent ?_ heffect.keeps hr hh
        rw [hdeeds, if_neg hr, List.append_nil]
  · intro n hn
    rw [hagent, requests_after] at hn
    cases hs : w.agent.requests[n]? with
    | some s =>
      -- no request ever disappears
      by_cases hown : t = .request n ∨ t = .handler n
      · obtain ⟨s₁, hserves⟩ := heffect.own n s hown hs
        rw [hserves.requests n, if_pos rfl] at hn
        cases hn
      · obtain ⟨hr, hh⟩ := not_or.mp hown
        rw [heffect.others n hr hh, hs] at hn
        cases hn
    | none =>
      rw [hdeeds, h.idle n hs]
      by_cases hown : t = .request n
      · rw [if_pos hown, (heffect.absent n hs).2 hown, List.append_nil]
      · rw [if_neg hown, List.append_nil]
  · intro u hu d hd
    rw [hdeeds] at hd
    rcases List.mem_append.mp hd with hd | hd
    · exact h.silent u hu d hd
    · by_cases htu : t = u
      · subst htu
        rw [if_pos rfl] at hd
        exact reply?_stepOf w.agent hu prefersStream d hd
      · rw [if_neg htu] at hd
        cases hd

/-! ### Every move -/

theorem keeps_receive (a : Agent σ) (r : Request) : Keeps a (a.receive r) :=
  Keeps.of_eq (fun t ht => by simp [receive, wake, ht]) rfl rfl

/-- A request that is taken waits to be routed. -/
theorem Serving.receive {w w' : World σ} (h : Serving registry w) (r : Request)
    (hagent : w'.agent = w.agent.receive r) (hj : w'.journal = w.journal)
    (hd : w'.departed = w.departed) : Serving registry w' := by
  have hdeeds : ∀ t, w'.deedsOf t = w.deedsOf t := by
    intro t
    unfold World.deedsOf
    rw [hj]
  have hrequests : w'.agent.requests = w.agent.requests ++ [⟨r, .received, none⟩] := by
    rw [hagent]
    rfl
  have hready : Task.request w.agent.requests.length ∈ w'.agent.ready := by
    rw [hagent]
    simp [Agent.receive, wake]
  refine ⟨?_, ?_, ?_, ?_, h.queue.of_eq (by rw [hagent]; rfl) hj hd⟩
  · rw [hagent]
    exact h.sameRegistry
  · intro n s hs
    rw [hrequests] at hs
    rcases Nat.lt_trichotomy n w.agent.requests.length with hlt | rfl | hgt
    · rw [List.getElem?_append_left hlt] at hs
      have hstands := h.stands n s hs
      refine ⟨hstands.sound, ?_, (hdeeds _).trans hstands.deeds⟩
      rw [hagent]
      exact hstands.awaited.keep (keeps_receive _ r)
    · rw [List.getElem?_append_right (Nat.le_refl _), Nat.sub_self] at hs
      obtain rfl := Option.some.inj hs
      refine ⟨trivial, hready, ?_⟩
      rw [hdeeds, h.idle _ (List.getElem?_eq_none (Nat.le_refl _))]
      rfl
    · rw [List.getElem?_eq_none (by simp; omega)] at hs
      cases hs
  · intro n hn
    rw [hdeeds]
    refine h.idle n (List.getElem?_eq_none ?_)
    have hlen := List.getElem?_eq_none_iff.mp hn
    rw [hrequests, List.length_append] at hlen
    omega
  · intro t ht d hd
    exact h.silent t ht d (hdeeds t ▸ hd)

theorem Serving.hear {w : World σ} (h : Serving registry w) (bytes : List UInt8) :
    Serving registry (w.hear bytes) := by
  unfold World.hear
  split
  · exact h
  · exact h.of_keeps rfl rfl (Keeps.refl _) rfl (h.queue.of_eq rfl rfl rfl)

/-- A request that the dispatcher takes is served from then on. -/
theorem Serving.take {w : World σ} (h : Serving registry w) : Serving registry w.take := by
  unfold World.take Intake.offer
  cases hchannel : w.channel with
  | nil => exact h
  | cons r rest =>
    by_cases hopen : w.intake.isOpen
    · simp only [hopen, if_true]
      exact h.receive r rfl rfl rfl
    · simp only [hopen]
      exact h

/-- The writer takes envelopes in the order in which they were queued. -/
theorem Serving.depart {w : World σ} (h : Serving registry w) : Serving registry w.depart := by
  unfold World.depart
  cases hqueue : w.agent.outbound.queue with
  | nil => exact h
  | cons e rest =>
    refine h.of_keeps rfl rfl (Keeps.of_eq (fun _ h => h) rfl rfl) rfl ?_
    intro hdropped
    have hbefore := h.queue hdropped
    unfold World.queued at hbefore
    rw [hqueue] at hbefore
    show ((w.departed ++ [e]) ++ rest).filter isReply = w.sent.filter isReply
    rw [List.append_assoc, List.singleton_append, hbefore]

theorem Serving.change {w : World σ} (h : Serving registry w) (kind : Kind) (change : Change)
    (object : Json) : Serving registry (w.withAgent (w.agent.onChange kind change object)) := by
  unfold onChange
  split
  · exact h
  · rename_i label _
    refine h.of_keeps rfl rfl (Keeps.of_eq (fun _ h => h) rfl rfl) rfl ?_
    intro hdropped
    let es := w.agent.gate.pass ⟨change, label, object⟩
    have hnone : es.filter isReply = [] := by
      show (w.agent.gate.pass _).filter isReply = []
      unfold Watch.Gate.pass
      split
      all_goals rfl
    have hsent : (w.agent.outbound.sendAll es).dropped = 0 := hdropped
    obtain ⟨hzero, hqueue⟩ := Outbound.sendAll_of_dropped_eq_zero hsent
    show (w.departed ++ (w.agent.outbound.sendAll es).queue).filter isReply =
      w.sent.filter isReply
    rw [hqueue, ← List.append_assoc, List.filter_append, hnone, List.append_nil]
    exact h.queue hzero

theorem Serving.step {w : World σ} (h : Serving registry w) (m : Move σ) :
    Serving registry (w.step m) := by
  have hquiet : m.IsQuiet → Serving registry (w.step m) := by
    intro hm
    have hq := quiet_step w m hm
    exact h.of_keeps hq.agent.registry hq.agent.requests hq.agent.keeps hq.journal
      (h.queue.of_eq hq.agent.outbound hq.journal hq.departed)
  cases m with
  | frame bytes => exact h.hear bytes
  | run t prefersStream => exact h.runTask t prefersStream
  | take => exact h.take
  | depart => exact h.depart
  | change kind change object => exact h.change kind change object
  | _ => exact hquiet trivial

theorem serving_run (client : Cluster.Client σ) (cluster : σ) (capacity tail : Nat)
    (moves : List (Move σ)) :
    Serving registry ((World.start registry client cluster capacity tail).run moves) :=
  World.run_induction (serving_start client cluster capacity tail) (fun _ m h => h.step m) moves

end ClusterAgent.Agent
