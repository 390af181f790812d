/-
  ClusterAgent/Proofs/Agent/Families.lean
  =======================================
  **Shells and logs seen alike: who is in which table.**

  Both families of sessions have a table, and in both the bridges between their first
  step and their end are those that the table lists: `listed`.  A session never
  goes back (`Later`), and one that is stopped stays stopped.  What the theory of the
  agent says of all its runs is gathered in `Tended`, which every move keeps.
-/
import ClusterAgent.Proofs.Agent.Lifecycle
import ClusterAgent.Proofs.Agent.LogBridges

namespace ClusterAgent.Agent

open Handler (ShellNumber)

variable {σ : Type}

/-! ### The table of logs -/

/-- The identifier and the guard that a log session holds. -/
def logHolder? (a : Agent σ) (n : Nat) : Option (String × Guard) :=
  a.logs[n]?.bind fun l => l.phase.guard?.map (l.id, ·)

/-- Every log session rests or will run, and the table lists those that hold their identifier. -/
structure LogOrderly (w : World σ) : Prop where
  attended : ∀ (n : Nat) (l : Log), w.agent.logs[n]? = some l → l.Rests ∨ Task.log n ∈ w.agent.ready
  seats : Seats w.agent.logTable w.agent.logHolder?

theorem seats_logStep {n : Nat} {id : String} {stopped : Bool} {table table' : SessionTable Nat}
    {phase phase' : Phase} {unread unread' : List UInt8} {deeds : List Deed}
    {holder holder' : Nat → Option (String × Guard)}
    (hstep : LogStep n id stopped table phase unread deeds table' phase' unread')
    (hseats : Seats table holder) (hbefore : holder n = phase.guard?.map (id, ·))
    (hafter : holder' n = phase'.guard?.map (id, ·))
    (hothers : ∀ m, m ≠ n → holder' m = holder m) : Seats table' holder' := by
  have hsame : phase'.guard? = phase.guard? → Seats table holder' := by
    intro hguard
    have heq : holder' = holder := by
      funext m
      by_cases h : m = n
      · rw [h, hafter, hbefore, hguard]
      · exact hothers m h
    exact heq ▸ hseats
  cases hstep with
  | claim _ free => exact seats_claim hseats free hbefore hafter hothers
  | release guard phase _ ending =>
    have hguard : phase.guard? = some guard := by
      rcases ending with rfl | ⟨last, rfl⟩ <;> rfl
    rw [hguard] at hbefore
    exact seats_release hseats hbefore hafter hothers
  | stay | refuse | abandon | miss | dial | stop | read | finish | broke => exact hsame rfl

theorem logOrderly_changes {w w' : World σ} (h : LogOrderly w) (hchanges : LogChanges w w') :
    LogOrderly w' := by
  cases hchanges with
  | beside agent _ _ =>
    constructor
    · intro n l' hl'
      cases hl : w.agent.logs[n]? with
      | none => exact Or.inr (agent.new n hl l' hl').2.2.2
      | some l =>
        obtain ⟨l₁, hl₁, -, hattended⟩ := agent.old n l hl
        cases hl'.symm.trans hl₁
        exact hattended (h.attended n l hl)
    · have hholder : w'.agent.logHolder? = w.agent.logHolder? := by
        funext n
        unfold logHolder?
        cases hl : w.agent.logs[n]? with
        | some l =>
          obtain ⟨l', hl', htouched, -⟩ := agent.old n l hl
          simp [hl', htouched.id, htouched.phase]
        | none =>
          cases hl' : w'.agent.logs[n]? with
          | none => rfl
          | some l' => simp [(agent.new n hl l' hl').1, Phase.guard?]
      rw [agent.table, hholder]
      exact h.seats
  | wrote n l bytes was live agent _ _ =>
    have hlogs : ∀ m : Nat, w'.agent.logs[m]? =
        if n = m then some (l.gets bytes) else w.agent.logs[m]? := by
      rw [agent]
      exact logs_wrote was bytes _
    constructor
    · intro m l' hl'
      rw [hlogs] at hl'
      split at hl'
      · rename_i hm
        subst hm
        apply Or.inr
        rw [agent]
        simp [wake]
      · refine (h.attended m l' hl').imp_right fun hready => ?_
        rw [agent]
        simp [wake, modifyLog, hready]
    · have hholder : w'.agent.logHolder? = w.agent.logHolder? := by
        funext m
        unfold logHolder?
        rw [hlogs]
        by_cases hm : n = m
        · subst hm
          rw [if_pos rfl, was]
          rfl
        · rw [if_neg hm]
      rw [hholder, agent]
      exact h.seats
  | own n l p was moved agent _ _ =>
    obtain ⟨l', hl', hid, -, hstep, hrests⟩ := moved.own
    have hlogs : ∀ m : Nat, w'.agent.logs[m]? = if n = m then some l' else w.agent.logs[m]? := by
      rw [agent]
      exact logs_own moved hl' _
    constructor
    · intro m t ht
      rw [hlogs] at ht
      split at ht
      · rename_i hm
        subst hm
        cases ht
        cases hgoes : p.goesOn with
        | false => exact Or.inl (hrests hgoes)
        | true =>
          apply Or.inr
          rw [agent]
          simp [Progress.after, hgoes]
      · rename_i hm
        refine (h.attended m t ht).imp_right fun hready => ?_
        have hne : Task.log m ≠ .log n := by
          intro heq
          cases heq
          exact hm rfl
        rw [agent]
        apply (keeps_after p _).ready
        rw [moved.ready]
        exact (List.mem_erase_of_ne hne).mpr hready
    · rw [agent, logTable_after, ← agent]
      refine seats_logStep hstep h.seats ?_ ?_ ?_
      · simp [logHolder?, was]
      · simp [logHolder?, hlogs, hid]
      · intro m hm
        simp [logHolder?, hlogs, Ne.symm hm]

theorem logOrderly_start (registry : Registry Handler) (client : Cluster.Client σ) (cluster : σ)
    (capacity tail : Nat) : LogOrderly (World.start registry client cluster capacity tail) where
  attended n l hl := by cases hl
  seats := by
    constructor
    · intro n id guard hn
      cases hn
    · intro slot hslot
      cases hslot
    · exact List.nodup_nil

/-! ### Both families -/

/-- A family of sessions, which share a table of identifiers. -/
inductive Family where
  | shell
  | log
deriving DecidableEq, Repr

def Family.task : Family → Nat → Task
  | .shell => .shell
  | .log => .log

def tableOf (a : Agent σ) : Family → SessionTable Nat
  | .shell => a.shellTable
  | .log => a.logTable

/-- The identifier of a session, and how far it has come. -/
def session? (a : Agent σ) : Family → Nat → Option (String × Phase)
  | .shell, n => a.shells[n]?.map fun s => (s.id, s.phase)
  | .log, n => a.logs[n]?.map fun l => (l.id, l.phase)

/-- A session that was in one phase may be in the other one now, or later. -/
structure Phase.Later (before after : Phase) : Prop where
  started : before ≠ .starting → after ≠ .starting
  gone : before = .gone → after = .gone

theorem Phase.Later.refl (phase : Phase) : phase.Later phase :=
  ⟨fun h => h, fun h => h⟩

theorem Phase.Later.trans {p q r : Phase} (hpq : p.Later q) (hqr : q.Later r) : p.Later r :=
  ⟨fun h => hqr.started (hpq.started h), fun h => hqr.gone (hpq.gone h)⟩

theorem later_of_bridgeStep {n : Nat} {id : String} {table table' : SessionTable ShellNumber}
    {phase phase' : Phase} {unread unread' : List UInt8} {deeds : List Deed}
    (h : BridgeStep n id table phase unread deeds table' phase' unread') : phase.Later phase' := by
  cases h with
  | stay => exact Phase.Later.refl _
  | refuse | claim | miss | dial | read | finish | last | release => constructor <;> simp

theorem later_of_logStep {n : Nat} {id : String} {stopped : Bool} {table table' : SessionTable Nat}
    {phase phase' : Phase} {unread unread' : List UInt8} {deeds : List Deed}
    (h : LogStep n id stopped table phase unread deeds table' phase' unread') :
    phase.Later phase' := by
  cases h with
  | stay => exact Phase.Later.refl _
  | release => constructor <;> simp
  | refuse | claim | abandon | miss | dial | stop | read | finish | broke => constructor <;> simp

theorem shell_later {w w' : World σ} (h : Changes w w') {n : Nat} {s : Shell}
    (hs : w.agent.shells[n]? = some s) :
    ∃ s', w'.agent.shells[n]? = some s' ∧ s'.id = s.id ∧ s.phase.Later s'.phase := by
  cases h with
  | beside agent _ _ =>
    obtain ⟨s', hs', hkept⟩ := agent.old n s hs
    exact ⟨s', hs', hkept.id, hkept.phase ▸ Phase.Later.refl _⟩
  | wrote k t bytes was live agent _ _ =>
    rw [agent]
    by_cases hn : k = n
    · subst hn
      exact ⟨s.gets bytes, by simp [wake, modifyShell, hs], rfl, Phase.Later.refl _⟩
    · exact ⟨s, by simp [wake, modifyShell, hs, hn], rfl, Phase.Later.refl _⟩
  | own k t p was moved agent _ _ =>
    rw [agent, shells_after]
    by_cases hn : n = k
    · subst hn
      cases was.symm.trans hs
      obtain ⟨s', hs', hid, hstep, -⟩ := moved.own
      exact ⟨s', hs', hid, later_of_bridgeStep hstep⟩
    · exact ⟨s, (moved.others n hn).trans hs, rfl, Phase.Later.refl _⟩

theorem log_later {w w' : World σ} (h : LogChanges w w') {n : Nat} {l : Log}
    (hl : w.agent.logs[n]? = some l) :
    ∃ l', w'.agent.logs[n]? = some l' ∧ l'.id = l.id ∧ l.phase.Later l'.phase ∧
      (l.stopped = true → l'.stopped = true) := by
  cases h with
  | beside agent _ _ =>
    obtain ⟨l', hl', htouched, -⟩ := agent.old n l hl
    exact ⟨l', hl', htouched.id, htouched.phase ▸ Phase.Later.refl _, htouched.stopped⟩
  | wrote k t bytes was live agent _ _ =>
    rw [agent]
    by_cases hn : k = n
    · subst hn
      exact ⟨l.gets bytes, by simp [wake, modifyLog, hl], rfl, Phase.Later.refl _, fun h => h⟩
    · exact ⟨l, by simp [wake, modifyLog, hl, hn], rfl, Phase.Later.refl _, fun h => h⟩
  | own k t p was moved agent _ _ =>
    rw [agent, logs_after]
    by_cases hn : n = k
    · subst hn
      cases was.symm.trans hl
      obtain ⟨l', hl', hid, hstopped, hstep, -⟩ := moved.own
      exact ⟨l', hl', hid, later_of_logStep hstep, fun h => hstopped.trans h⟩
    · exact ⟨l, (moved.others n hn).trans hl, rfl, Phase.Later.refl _, fun h => h⟩

/-! ### All that is known of a world -/

/-- Requests are served and sessions are in order. -/
structure Tended (registry : Registry Handler) (w : World σ) : Prop where
  serving : Serving registry w
  shells : Orderly w
  logs : LogOrderly w

variable {registry : Registry Handler}

theorem Tended.step {w : World σ} (h : Tended registry w) (m : Move σ) :
    Tended registry (w.step m) where
  serving := h.serving.step m
  shells := orderly_changes h.shells (changes_step w m)
  logs := logOrderly_changes h.logs (logChanges_step h.serving m)

theorem tended_run (client : Cluster.Client σ) (cluster : σ) (capacity tail : Nat)
    (moves : List (Move σ)) :
    Tended registry ((World.start registry client cluster capacity tail).run moves) :=
  World.run_induction
    ⟨serving_start client cluster capacity tail,
      orderly_start registry client cluster capacity tail,
      logOrderly_start registry client cluster capacity tail⟩
    (fun _ m h => h.step m) moves

theorem shell_of_session {a : Agent σ} {n : Nat} {id : String} {phase : Phase}
    (h : a.session? .shell n = some (id, phase)) :
    ∃ s : Shell, a.shells[n]? = some s ∧ s.id = id ∧ s.phase = phase := by
  obtain ⟨s, hs, heq⟩ := Option.map_eq_some_iff.mp h
  exact ⟨s, hs, Prod.mk.inj heq⟩

theorem log_of_session {a : Agent σ} {n : Nat} {id : String} {phase : Phase}
    (h : a.session? .log n = some (id, phase)) :
    ∃ l : Log, a.logs[n]? = some l ∧ l.id = id ∧ l.phase = phase := by
  obtain ⟨l, hl, heq⟩ := Option.map_eq_some_iff.mp h
  exact ⟨l, hl, Prod.mk.inj heq⟩

theorem session?_step {w : World σ} (h : Tended registry w) (m : Move σ) {f : Family} {n : Nat}
    {id : String} {phase : Phase} (hsession : w.agent.session? f n = some (id, phase)) :
    ∃ phase', (w.step m).agent.session? f n = some (id, phase') ∧ phase.Later phase' := by
  cases f with
  | shell =>
    obtain ⟨s, hs, rfl, rfl⟩ := shell_of_session hsession
    obtain ⟨s', hs', hid, hlater⟩ := shell_later (changes_step w m) hs
    exact ⟨s'.phase, by simp [session?, hs', hid], hlater⟩
  | log =>
    obtain ⟨l, hl, rfl, rfl⟩ := log_of_session hsession
    obtain ⟨l', hl', hid, hlater, -⟩ := log_later (logChanges_step h.serving m) hl
    exact ⟨l'.phase, by simp [session?, hl', hid], hlater⟩

theorem get?_of_seat {table : SessionTable Nat} {holder : Nat → Option (String × Guard)}
    (hseats : Seats table holder) {n : Nat} {id : String} {guard : Guard}
    (h : holder n = some (id, guard)) : table.get? id = some n := by
  obtain ⟨-, hslot⟩ := hseats.held n id guard h
  unfold SessionTable.get?
  cases hfind : table.slots.find? (·.1 = id) with
  | none =>
    have hmissing := List.find?_eq_none.mp hfind _ hslot
    simp at hmissing
  | some slot =>
    have hid : slot.1 = id := by simpa using List.find?_some hfind
    have heq := eq_of_distinct hseats.distinct (List.mem_of_find?_eq_some hfind) hslot hid
    rw [heq]
    rfl

theorem get?_iff_seat {table : SessionTable Nat} {holder : Nat → Option (String × Guard)}
    (hseats : Seats table holder) (id : String) (n : Nat) :
    table.get? id = some n ↔ ∃ guard, holder n = some (id, guard) := by
  constructor
  · intro hget
    obtain ⟨slot, hfind, rfl⟩ := Option.map_eq_some_iff.mp hget
    have hid : slot.1 = id := by simpa using List.find?_some hfind
    have hholder := hseats.taken slot (List.mem_of_find?_eq_some hfind)
    exact ⟨_, hid ▸ hholder⟩
  · rintro ⟨guard, hholder⟩
    exact get?_of_seat hseats hholder

/-- **The table lists a session from its first step to its end.** -/
theorem listed {w : World σ} (h : Tended registry w) {f : Family} {n : Nat} {id : String}
    {phase : Phase} (hsession : w.agent.session? f n = some (id, phase))
    (hstarted : phase ≠ .starting) (hthere : phase ≠ .gone) :
    (w.agent.tableOf f).get? id = some n := by
  obtain ⟨guard, hguard⟩ : ∃ guard, phase.guard? = some guard := by
    cases phase with
    | starting => exact absurd rfl hstarted
    | gone => exact absurd rfl hthere
    | opening guard | live guard | closing guard _ | closed guard => exact ⟨guard, rfl⟩
  cases f with
  | shell =>
    obtain ⟨s, hs, rfl, rfl⟩ := shell_of_session hsession
    have hholds : w.agent.holder? n = some (s.id, guard) := by simp [holder?, hs, hguard]
    exact get?_of_seat h.shells.seats hholds
  | log =>
    obtain ⟨l, hl, rfl, rfl⟩ := log_of_session hsession
    have hholds : w.agent.logHolder? n = some (l.id, guard) := by simp [logHolder?, hl, hguard]
    exact get?_of_seat h.logs.seats hholds

/-- Before its first step no table names a log session. -/
theorem unlisted {w : World σ} (h : LogOrderly w) {n : Nat} {l : Log}
    (hl : w.agent.logs[n]? = some l) (hstarting : l.phase = .starting) (id : String) :
    w.agent.logTable.get? id ≠ some n := by
  intro hget
  obtain ⟨guard, hholder⟩ := (get?_iff_seat h.seats id n).mp hget
  simp [logHolder?, hl, hstarting, Phase.guard?] at hholder

/-- A session that has not taken its first step is about to take it. -/
theorem ready_of_session_starting {w : World σ} (h : Tended registry w) {f : Family} {n : Nat}
    {id : String} (hsession : w.agent.session? f n = some (id, .starting)) :
    f.task n ∈ w.agent.ready := by
  cases f with
  | shell =>
    obtain ⟨s, hs, -, hphase⟩ := shell_of_session hsession
    exact ready_of_starting h.shells hs hphase
  | log =>
    obtain ⟨l, hl, -, hphase⟩ := log_of_session hsession
    rcases h.logs.attended n l hl with (hover | ⟨hlive, -⟩) | hready
    · rw [hphase] at hover
      cases hover
    · rw [hphase] at hlive
      cases hlive
    · exact hready

end ClusterAgent.Agent
