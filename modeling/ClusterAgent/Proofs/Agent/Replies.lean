/-
  ClusterAgent/Proofs/Agent/Replies.lean
  ======================================
  **One reply for each request.**

  The journal of a run is sorted by tasks: what is not the doing of a request's own
  task is no reply (`perm_replies`).  Together with the invariant `Serving` this gives
  the contract of the dispatcher, `one_reply_per_request`: whatever the handlers do
  and in whatever order the tasks run, each request that was taken gets one
  reply, with its own identifier and what its own handler came to.
-/
import Mathlib.Data.List.Forall2
import ClusterAgent.Proofs.Agent.Requests

namespace ClusterAgent.Agent

open Handler (Outcome Program ShellNumber)

variable {σ : Type}

/-! ### Sorting the journal -/

/-- A list is its sublists by key, one behind the other, up to order. -/
theorem perm_flatMap_filter {α : Type} (key : α → Nat) (bound : Nat) (l : List α)
    (h : ∀ x ∈ l, key x < bound) :
    l.Perm ((List.range bound).flatMap fun n => l.filter (key · = n)) := by
  induction bound generalizing l with
  | zero =>
    cases l with
    | nil => exact List.Perm.refl _
    | cons x _ => exact absurd (h x List.mem_cons_self) (Nat.not_lt_zero _)
  | succ bound ih =>
    let small := l.filter (key · < bound)
    have hsmall : ∀ n < bound, small.filter (key · = n) = l.filter (key · = n) := by
      intro n hn
      rw [List.filter_filter]
      refine List.filter_congr fun x _ => ?_
      by_cases hx : key x = n <;> simp [hx, hn]
    have hlast : l.filter (fun x => !decide (key x < bound)) = l.filter (key · = bound) := by
      refine List.filter_congr fun x hx => ?_
      have := h x hx
      simp only [← decide_not, decide_eq_decide]
      omega
    have hrest : small.Perm ((List.range bound).flatMap fun n => l.filter (key · = n)) := by
      refine (ih small fun x hx => by simpa using (List.mem_filter.mp hx).2).trans ?_
      rw [List.flatMap_congr fun n hn => hsmall n (List.mem_range.mp hn)]
    rw [List.range_succ, List.flatMap_append, List.flatMap_singleton, ← hlast]
    exact (List.filter_append_perm (key · < bound) l).symm.trans (hrest.append_right _)

/-- The request that a task serves by sending its answer. -/
def Task.number : Task → Nat
  | .request n => n
  | _ => 0

/-- The replies of a list are those of its requests, one behind the other. -/
theorem flatMap_range_getElem? {α β : Type} (l : List α) (f : Nat → List β) (g : α → List β)
    (h : ∀ (n : Nat) (x : α), l[n]? = some x → f n = g x) :
    (List.range l.length).flatMap f = l.flatMap g := by
  have hmap : (List.range l.length).map f = l.map g := by
    refine List.ext_getElem (by simp) fun n h₁ h₂ => ?_
    have hn : n < l.length := by simpa using h₁
    simpa using h n l[n] (List.getElem?_eq_getElem hn)
  rw [List.flatMap_def, List.flatMap_def, hmap]

/-- Who sends a reply is the task of a request that was taken. -/
theorem Serving.sender {registry : Registry Handler} {w : World σ} (h : Serving registry w)
    {t : Task} {d : Deed} (hmem : (t, d) ∈ w.journal) (hd : d.reply?.isSome) :
    ∃ n < w.agent.requests.length, t = .request n := by
  have hof : d ∈ w.deedsOf t := List.mem_map.mpr ⟨(t, d), List.mem_filter.mpr ⟨hmem, by simp⟩, rfl⟩
  by_cases ht : ∃ n, t = .request n
  · obtain ⟨n, rfl⟩ := ht
    refine ⟨n, ?_, rfl⟩
    by_contra hn
    rw [h.idle n (List.getElem?_eq_none (Nat.le_of_not_lt hn))] at hof
    cases hof
  · rw [h.silent t (fun n hn => ht ⟨n, hn⟩) d hof] at hd
    cases hd

/-- What the tasks sent in reply is, up to order, what each request was answered. -/
theorem perm_replies {registry : Registry Handler} {w : World σ} (h : Serving registry w) :
    (w.sent.filter isReply).Perm (w.agent.requests.filterMap Served.reply?) := by
  let replies := w.journal.filter (·.2.reply?.isSome)
  have hsent : w.sent.filter isReply = replies.filterMap (·.2.reply?) := by
    unfold World.sent
    rw [List.filter_filterMap, List.filterMap_filter]
    refine List.filterMap_congr fun x _ => ?_
    show x.2.reply? = _
    cases x.2.reply? <;> rfl
  have hnumber : ∀ x ∈ replies, x.1.number < w.agent.requests.length := by
    rintro ⟨t, d⟩ hx
    obtain ⟨hmem, hd⟩ := List.mem_filter.mp hx
    obtain ⟨n, hn, rfl⟩ := h.sender hmem hd
    exact hn
  have hown : ∀ n, (replies.filter (·.1.number = n)).filterMap (·.2.reply?) =
      (w.deedsOf (.request n)).filterMap Deed.reply? := by
    intro n
    unfold World.deedsOf
    rw [List.filterMap_filter, List.filterMap_filter, List.filterMap_map, List.filterMap_filter]
    refine List.filterMap_congr ?_
    rintro ⟨t, d⟩ hmem
    cases hd : d.reply? with
    | none => simp [hd]
    | some e =>
      obtain ⟨m, -, rfl⟩ := h.sender hmem (hd ▸ rfl)
      by_cases hmn : m = n <;> simp [hd, Task.number, hmn]
  have hparts : ((List.range w.agent.requests.length).flatMap fun n =>
      (replies.filter (·.1.number = n)).filterMap (·.2.reply?)) =
        w.agent.requests.flatMap fun s => s.reply?.toList := by
    refine flatMap_range_getElem? _ _ _ fun n s hs => ?_
    rw [hown, (h.stands n s hs).deeds, filterMap_history]
  rw [hsent, List.filterMap_eq_flatMap_toList Served.reply?, ← hparts, ← List.filterMap_flatMap]
  exact (perm_flatMap_filter (·.1.number) _ replies hnumber).filterMap _

/-! ### The requests that are taken -/

def Move.request? : Move σ → Option Request
  | .frame bytes => Request.ofFrame? bytes
  | _ => none

/-- Whether the move is a frame that holds no request. -/
def Move.isSkipped : Move σ → Bool
  | .frame bytes => (Request.ofFrame? bytes).isNone
  | _ => false

theorem taken_runTask {registry : Registry Handler} {w : World σ} (h : Serving registry w)
    (t : Task) (prefersStream : Bool) : (w.runTask t prefersStream).taken = w.taken := by
  unfold World.taken
  by_cases ht : t ∈ w.agent.ready
  case neg =>
    unfold World.runTask
    rw [if_neg ht]
  obtain ⟨hagent, -, -⟩ := w.runTask_ready ht prefersStream
  have heffect := effect_stepOf t prefersStream fun n s hs => (h.stands n s hs).awaited
  rw [hagent, requests_after]
  refine List.ext_getElem? fun n => ?_
  rw [List.getElem?_map, List.getElem?_map]
  cases hs : w.agent.requests[n]? with
  | none => rw [(heffect.absent n hs).1]
  | some s =>
    by_cases hown : t = .request n ∨ t = .handler n
    · obtain ⟨s', hserves⟩ := heffect.own n s hown hs
      rw [hserves.requests n, if_pos rfl]
      exact congrArg some hserves.request
    · obtain ⟨hr, hh⟩ := not_or.mp hown
      rw [heffect.others n hr hh, hs]

/-- Requests are taken in the order in which they arrive. -/
theorem taken_step {registry : Registry Handler} {w : World σ} (h : Serving registry w)
    (m : Move σ) : (w.step m).taken ++ (w.step m).channel =
      w.taken ++ w.channel ++ m.request?.toList := by
  have hquiet : m.IsQuiet → m.request? = none → (w.step m).taken ++ (w.step m).channel =
      w.taken ++ w.channel ++ m.request?.toList := by
    intro hm hnone
    have hq := quiet_step w m hm
    unfold World.taken
    rw [hq.agent.requests, hq.channel, hnone]
    simp
  cases m with
  | run t prefersStream =>
    have hchannel : (w.runTask t prefersStream).channel = w.channel := by
      unfold World.runTask
      split
      all_goals rfl
    show (w.runTask t prefersStream).taken ++ (w.runTask t prefersStream).channel = _
    rw [taken_runTask h, hchannel]
    simp [Move.request?]
  | frame bytes =>
    show (w.hear bytes).taken ++ (w.hear bytes).channel =
      w.taken ++ w.channel ++ (Request.ofFrame? bytes).toList
    unfold World.hear
    cases Request.ofFrame? bytes with
    | none => simp
    | some r => exact (List.append_assoc _ _ _).symm
  | take =>
    show w.take.taken ++ w.take.channel = _
    unfold World.take Intake.offer
    cases hchannel : w.channel with
    | nil => simp [hchannel, Move.request?]
    | cons r rest =>
      by_cases hopen : w.intake.isOpen
      · simp [hopen, Move.request?, World.taken, World.agent, Agent.receive, wake]
      · simp [hopen, hchannel, Move.request?]
  | depart =>
    show w.depart.taken ++ w.depart.channel = _
    unfold World.depart
    split
    all_goals simp [Move.request?, World.taken, World.agent, World.withAgent]
  | change kind change object =>
    show (w.withAgent (w.agent.onChange kind change object)).taken ++ w.channel = _
    unfold onChange
    split
    all_goals simp [Move.request?, World.taken, World.agent, World.withAgent]
  | _ => exact hquiet trivial rfl

/-- Frames that hold no request might as well not have come. -/
theorem run_filter (w : World σ) (moves : List (Move σ)) :
    w.run (moves.filter (!·.isSkipped)) = w.run moves := by
  unfold World.run
  induction moves generalizing w with
  | nil => rfl
  | cons m rest ih =>
    cases hm : m.isSkipped with
    | false =>
      rw [List.filter_cons_of_pos (by simp [hm]), List.foldl_cons, List.foldl_cons]
      exact ih _
    | true =>
      have hstep : w.step m = w := by
        cases m with
        | frame bytes =>
          have hnone : Request.ofFrame? bytes = none := Option.isNone_iff_eq_none.mp hm
          simp only [World.step, World.hear, hnone]
        | _ => cases hm
      rw [List.filter_cons_of_neg (by simp [hm]), List.foldl_cons, hstep]
      exact ih w

/-- Requests are taken in the order in which they arrive, and none is lost before it is taken. -/
theorem taken_run {registry : Registry Handler} {w : World σ} (h : Serving registry w)
    (moves : List (Move σ)) : (w.run moves).taken ++ (w.run moves).channel =
      w.taken ++ w.channel ++ moves.filterMap Move.request? := by
  unfold World.run
  induction moves generalizing w with
  | nil => simp
  | cons m rest ih =>
    rw [List.foldl_cons, ih (h.step m), taken_step h m]
    cases hm : m.request? <;> simp [hm]

/-! ### The contract -/

/-- No task that serves a request can go on: none is ready or asleep or waits for room. -/
def ServesNobody (a : Agent σ) : Prop :=
  ∀ n, Task.request n ∉ a.ready ∧ Task.handler n ∉ a.ready ∧
    (∀ d, (d, Task.handler n) ∉ a.timers) ∧ ∀ shell, ¬ a.WaitsAt n shell

/-- The tasks of all requests that were taken have finished. -/
def AllAnswered (a : Agent σ) : Prop :=
  ∀ s ∈ a.requests, ∃ answer, s.stage = .answered answer

/-- No request waits for somebody who will never come. -/
theorem Serving.allAnswered {registry : Registry Handler} {w : World σ}
    (h : Serving registry w) (hnobody : w.agent.ServesNobody) : w.agent.AllAnswered := by
  intro s hs
  obtain ⟨n, hn⟩ := List.getElem?_of_mem hs
  have hawaited := (h.stands n s hn).awaited
  obtain ⟨hrequest, hhandler, hasleep, hwaits⟩ := hnobody n
  cases hstage : s.stage with
  | answered answer => exact ⟨answer, rfl⟩
  | received =>
    rw [hstage] at hawaited
    exact absurd hawaited hrequest
  | finished =>
    rw [hstage] at hawaited
    exact absurd hawaited hrequest
  | running =>
    rw [hstage] at hawaited
    rcases hawaited with h | ⟨d, h⟩
    · exact absurd h hhandler
    · exact absurd h (hasleep d)
  | delivering shell =>
    rw [hstage] at hawaited
    rcases hawaited with h | h
    · exact absurd h hhandler
    · exact absurd h (hwaits shell)

theorem exists_answers {P : Request → Response → Prop} (requests : List Served)
    (h : ∀ s ∈ requests, ∃ answer, s.stage = .answered answer ∧ P s.request answer) :
    ∃ answers, List.Forall₂ P (requests.map Served.request) answers ∧
      requests.filterMap Served.reply? =
        List.zipWith (fun r => Envelope.response r.requestId) (requests.map Served.request)
          answers := by
  induction requests with
  | nil => exact ⟨[], .nil, rfl⟩
  | cons s rest ih =>
    obtain ⟨answer, hstage, hanswer⟩ := h s List.mem_cons_self
    obtain ⟨answers, hall, hreplies⟩ := ih fun s' hs' => h s' (List.mem_cons_of_mem _ hs')
    refine ⟨answer :: answers, .cons hanswer hall, ?_⟩
    have hreply : s.reply? = some (Envelope.response s.request.requestId answer) := by
      unfold Served.reply?
      rw [hstage]
    rw [List.filterMap_cons_some hreply, hreplies]
    rfl

/-- The handler of a request that was answered has been called once, if there is one. -/
theorem Stands.count_call {registry : Registry Handler} {w : World σ} {n : Nat} {s : Served}
    (h : Stands registry w n s) {answer : Response} (hstage : s.stage = .answered answer) :
    (w.deedsOf (.request n)).count .call =
      if (registry.lookup s.request.resource s.request.action).isSome then 1 else 0 := by
  rw [h.deeds, hstage]
  cases registry.lookup s.request.resource s.request.action <;> simp [history]

/-- The handler of a request is called at most once, and only if there is one. -/
theorem Stands.count_call_le {registry : Registry Handler} {w : World σ} {n : Nat} {s : Served}
    (h : Stands registry w n s) : (w.deedsOf (.request n)).count .call ≤
      if (registry.lookup s.request.resource s.request.action).isSome then 1 else 0 := by
  have hsound := h.sound
  have hcount := @h.count_call
  rw [h.deeds] at hcount ⊢
  generalize registry.lookup s.request.resource s.request.action = handler? at hsound hcount ⊢
  cases hstage : s.stage with
  | received => exact Nat.zero_le _
  | answered answer => exact Nat.le_of_eq (hstage ▸ hcount hstage)
  | running rest =>
    rw [hstage] at hsound
    obtain ⟨handler, rfl, -⟩ := hsound
    simp [history]
  | delivering shell parcel rest =>
    rw [hstage] at hsound
    obtain ⟨handler, rfl, -⟩ := hsound
    simp [history]
  | finished answer =>
    rw [hstage] at hsound
    simp [history, hsound.1]

/-- **One reply for each request.**  After every run of an agent whose handlers were registered by
    `calls`: frames without a request have made no difference; the requests were taken in the order
    in which they came; no handler was called twice, and none for an unregistered pair; when no task
    can go on, all requests are answered.  When all are answered, each handler that there is was
    called once, and the replies are, up to order, one for each request that was taken, with its
    identifier and the answer that the handler registered last for it came to.  If nothing was
    evicted, all of them came into the queue. -/
theorem one_reply_per_request (calls : List ((String × String) × Handler))
    (client : Cluster.Client σ) (cluster : σ) (capacity tail : Nat) (moves : List (Move σ)) :
    let start := World.start (Registry.ofCalls calls) client cluster capacity tail
    let w := start.run moves
    let handlerOf := fun r : Request => Registry.lastOf calls r.resource r.action
    start.run (moves.filter (!·.isSkipped)) = w ∧
      w.taken ++ w.channel = moves.filterMap Move.request? ∧
      (∀ (n : Nat) (r : Request), w.taken[n]? = some r →
        (w.deedsOf (.request n)).count .call ≤ if (handlerOf r).isSome then 1 else 0) ∧
      (w.agent.ServesNobody → w.agent.AllAnswered) ∧
      (w.agent.AllAnswered →
        (∀ (n : Nat) (r : Request), w.taken[n]? = some r →
          (w.deedsOf (.request n)).count .call = if (handlerOf r).isSome then 1 else 0) ∧
        ∃ answers, List.Forall₂ (fun r => IsAnswer (handlerOf r) r) w.taken answers ∧
          let replies := List.zipWith (fun r => Envelope.response r.requestId) w.taken answers
          (w.sent.filter isReply).Perm replies ∧
            (w.agent.outbound.dropped = 0 → (w.queued.filter isReply).Perm replies)) := by
  intro start w handlerOf
  have hserving : Serving (Registry.ofCalls calls) w :=
    serving_run client cluster capacity tail moves
  have hof : ∀ (n : Nat) (r : Request), w.taken[n]? = some r →
      ∃ s, w.agent.requests[n]? = some s ∧ s.request = r := by
    intro n r hr
    unfold World.taken at hr
    rw [List.getElem?_map] at hr
    exact Option.map_eq_some_iff.mp hr
  refine ⟨run_filter _ _, ?_, ?_, hserving.allAnswered, fun hall => ⟨?_, ?_⟩⟩
  · exact taken_run (serving_start client cluster capacity tail) moves
  · intro n r hr
    obtain ⟨s, hs, rfl⟩ := hof n r hr
    have hcount := (hserving.stands n s hs).count_call_le
    rw [Registry.lookup_ofCalls] at hcount
    exact hcount
  · intro n r hr
    obtain ⟨s, hs, rfl⟩ := hof n r hr
    obtain ⟨answer, hstage⟩ := hall s (List.mem_of_getElem? hs)
    have hcount := (hserving.stands n s hs).count_call hstage
    rw [Registry.lookup_ofCalls] at hcount
    exact hcount
  · have hanswers : ∀ s ∈ w.agent.requests, ∃ answer, s.stage = .answered answer ∧
        IsAnswer (handlerOf s.request) s.request answer := by
      intro s hs
      obtain ⟨n, hn⟩ := List.getElem?_of_mem hs
      obtain ⟨answer, hstage⟩ := hall s hs
      have hsound := (hserving.stands n s hn).sound
      rw [hstage, Registry.lookup_ofCalls] at hsound
      exact ⟨answer, hstage, hsound⟩
    obtain ⟨answers, hright, hreplies⟩ :=
      exists_answers (P := fun r => IsAnswer (handlerOf r) r) w.agent.requests hanswers
    have hperm := perm_replies hserving
    rw [hreplies] at hperm
    refine ⟨answers, hright, hperm, fun hdropped => ?_⟩
    rw [hserving.queue hdropped]
    exact hperm

/-- Three requests with one identifier, of which one is answered by its handler, one breaks its
    handler down and one has none: a frame that holds no request arrives before them, the dispatcher
    stops before any of them is routed, and each still gets its reply. -/
theorem one_reply_per_request_of_three :
    let calls : List ((String × String) × Handler) :=
      [(("pod", "get"), fun _ => .fail .silent),
       (("pod", "list"), fun _ => .fail (.text "broken")),
       (("pod", "get"), fun _ => .done (Response.error .getError "gone"))]
    let moves : List (Move Cluster.Memory) :=
      [.frame "no request".toUTF8.toList, .frame "[\"pod\",\"get\",\"7\",null]".toUTF8.toList,
       .frame "[\"pod\",\"list\",\"7\",null]".toUTF8.toList,
       .frame "[\"pod\",\"drop\",\"7\",null]".toUTF8.toList, .take, .take, .take, .stop,
       .run (.request 2) false, .run (.request 1) false, .run (.request 0) false,
       .run (.handler 1) false, .run (.handler 0) false, .run (.request 1) false,
       .run (.request 0) false]
    let w :=
      (World.start (Registry.ofCalls calls) Cluster.Memory.client Cluster.Memory.empty 3 0).run moves
    w.agent.ServesNobody ∧ w.taken.length = 3 ∧ w.agent.outbound.dropped = 0 ∧
      ∃ answers,
        List.Forall₂ (fun r => IsAnswer (Registry.lastOf calls r.resource r.action) r) w.taken
          answers ∧
        (w.queued.filter isReply).Perm
          (List.zipWith (fun r => Envelope.response r.requestId) w.taken answers) := by
  intro calls moves
  let start := World.start (Registry.ofCalls calls) Cluster.Memory.client Cluster.Memory.empty 3 0
  have hrest : (start.run moves).agent.ready = [] ∧ (start.run moves).agent.timers = [] ∧
      (start.run moves).agent.shells.length = 0 ∧ (start.run moves).taken.length = 3 ∧
      (start.run moves).agent.outbound.dropped = 0 := by decide +kernel
  have hcontract :=
    one_reply_per_request calls Cluster.Memory.client Cluster.Memory.empty 3 0 moves
  dsimp only [start] at hrest hcontract ⊢
  generalize World.run _ moves = w at hrest hcontract ⊢
  obtain ⟨hready, htimers, hshells, htaken, hdropped⟩ := hrest
  obtain ⟨-, -, -, hall, hreplies⟩ := hcontract
  have hnobody : w.agent.ServesNobody := by
    intro n
    refine ⟨by simp [hready], by simp [hready], by simp [htimers], ?_⟩
    rintro shell ⟨s, hs, -⟩
    rw [List.length_eq_zero_iff.mp hshells] at hs
    cases hs
  obtain ⟨-, answers, hright, -, hperm⟩ := hreplies (hall hnobody)
  exact ⟨hnobody, htaken, hdropped, answers, hright, hperm hdropped⟩

end ClusterAgent.Agent
