/-
  ClusterAgent/Proofs/Agent/Story.lean
  ====================================
  **What the bridge of a shell session has done.**

  The phase of a session tells all that its bridge has ever done (`Story`): it claims
  its identifier, dials, passes on every piece that it reads, says once how it ended,
  and gives the identifier up; or it finds the identifier taken and says so.  Every
  step of the bridge tells the story on.
-/
import ClusterAgent.Proofs.Agent.BridgeStep

namespace ClusterAgent.Agent

open Handler (ShellNumber)

/-! ### The story of a session -/

def passOn (id : String) (chunks : List (List UInt8)) : List Deed :=
  chunks.flatMap fun chunk => [.read chunk, .queue (Envelope.exec id chunk)]

/-- What a bridge has done when it knows its last chunk: it could not open the stream, or it passed
    on what it read until the stream ended. -/
inductive Ends (id : String) (guard : Guard) : List Deed → List UInt8 → Prop where
  | missed (failure : Cluster.Failure) :
      Ends id guard [.claim guard, .dial (some failure)] failure.message.toUTF8.toList
  | bridged (chunks : List (List UInt8)) (full : ∀ chunk ∈ chunks, chunk ≠ [])
      (ending : Session.Ending) :
      Ends id guard ([.claim guard, .dial none] ++ passOn id chunks ++ [.finish ending])
        (Session.Shell.lastChunk ending)

/-- All that the bridge of a session with this identifier has done when it has come that far. -/
def Story (id : String) : Phase → List Deed → Prop
  | .starting, deeds => deeds = []
  | .opening guard, deeds => deeds = [.claim guard]
  | .live guard, deeds =>
    ∃ chunks, (∀ chunk ∈ chunks, chunk ≠ []) ∧
      deeds = [.claim guard, .dial none] ++ passOn id chunks
  | .closing guard last, deeds => Ends id guard deeds last
  | .closed guard, deeds =>
    ∃ before last, Ends id guard before last ∧ deeds = before ++ [.queue (Envelope.exec id last)]
  | .gone, deeds =>
    deeds = [.queue (Envelope.exec id (refusal id))] ∨
    ∃ guard before last, Ends id guard before last ∧
      deeds = before ++ [.queue (Envelope.exec id last), .release guard]

theorem passOn_append (id : String) (chunks more : List (List UInt8)) :
    passOn id (chunks ++ more) = passOn id chunks ++ passOn id more :=
  List.flatMap_append

theorem story_step {n : Nat} {id : String} {table table' : SessionTable ShellNumber}
    {phase phase' : Phase} {unread unread' : List UInt8} {done deeds : List Deed}
    (hstep : BridgeStep n id table phase unread deeds table' phase' unread')
    (hstory : Story id phase done) : Story id phase' (done ++ deeds) := by
  cases hstep with
  | stay =>
    rw [List.append_nil]
    exact hstory
  | refuse _ taken =>
    obtain rfl : done = [] := hstory
    exact Or.inl rfl
  | claim _ free =>
    obtain rfl : done = [] := hstory
    exact rfl
  | miss guard _ failure =>
    obtain rfl : done = [.claim guard] := hstory
    exact Ends.missed failure
  | dial guard _ =>
    obtain rfl : done = [.claim guard] := hstory
    exact ⟨[], by simp, rfl⟩
  | read guard bytes _ hbytes =>
    obtain ⟨chunks, hfull, rfl⟩ := hstory
    refine ⟨chunks ++ [bytes], ?_, ?_⟩
    · intro chunk hchunk
      rcases List.mem_append.mp hchunk with hold | hnew
      · exact hfull chunk hold
      · rw [List.mem_singleton] at hnew
        exact hnew ▸ hbytes
    · rw [passOn_append, ← List.append_assoc]
      rfl
  | finish guard _ ending drained =>
    obtain ⟨chunks, hfull, rfl⟩ := hstory
    exact Ends.bridged chunks hfull ending
  | last guard _ chunk => exact ⟨done, chunk, hstory, rfl⟩
  | release guard _ =>
    obtain ⟨before, last, hends, rfl⟩ := hstory
    refine Or.inr ⟨guard, before, last, hends, ?_⟩
    rw [List.append_assoc]
    rfl

/-! ### What is read and what is queued -/

def Deed.read? : Deed → Option (List UInt8)
  | .read bytes => some bytes
  | _ => none

def reads (deeds : List Deed) : List (List UInt8) :=
  deeds.filterMap Deed.read?

def envelopes (deeds : List Deed) : List Envelope :=
  deeds.filterMap Deed.envelope?

/-- What was unread was read or is unread still. -/
theorem reads_step {n : Nat} {id : String} {table table' : SessionTable ShellNumber}
    {phase phase' : Phase} {unread unread' : List UInt8} {deeds : List Deed}
    (hstep : BridgeStep n id table phase unread deeds table' phase' unread') :
    (reads deeds).flatten ++ unread' = unread := by
  cases hstep with
  | read guard bytes _ hbytes => simp [reads, Deed.read?]
  | stay | refuse | claim | miss | dial | finish | last | release => simp [reads, Deed.read?]

theorem finish_not_mem_passOn (id : String) (chunks : List (List UInt8))
    (ending : Session.Ending) : .finish ending ∉ passOn id chunks := by
  simp [passOn]

/-- Whoever has seen the end of its stream has read everything. -/
theorem drained_step {n : Nat} {id : String} {table table' : SessionTable ShellNumber}
    {phase phase' : Phase} {unread unread' : List UInt8} {done deeds : List Deed}
    (hstep : BridgeStep n id table phase unread deeds table' phase' unread')
    (hstory : Story id phase done) (hdrained : .finish .finished ∈ done → unread = [])
    (hmem : .finish .finished ∈ done ++ deeds) : unread' = [] := by
  cases hstep with
  | stay => exact hdrained (by simpa using hmem)
  | read guard bytes _ hbytes =>
    obtain ⟨chunks, -, rfl⟩ := hstory
    simp [finish_not_mem_passOn] at hmem
  | finish guard _ ending drained =>
    rcases List.mem_append.mp hmem with hold | hnew
    · exact hdrained hold
    · simp only [List.mem_singleton, Deed.finish.injEq] at hnew
      exact drained hnew.symm
  | refuse _ taken => exact hdrained (by simpa using hmem)
  | claim _ free => exact hdrained (by simpa using hmem)
  | miss guard _ failure => exact hdrained (by simpa using hmem)
  | dial guard _ => exact hdrained (by simpa using hmem)
  | last guard _ chunk => exact hdrained (by simpa using hmem)
  | release guard _ => exact hdrained (by simpa using hmem)

/-- A bridge with a stream has not seen the end of it. -/
theorem finish_not_mem_of_live {id : String} {phase : Phase} {deeds : List Deed}
    (hstory : Story id phase deeds) (hlive : phase.isLive = true) (ending : Session.Ending) :
    .finish ending ∉ deeds := by
  cases phase with
  | live guard =>
    obtain ⟨chunks, -, rfl⟩ := hstory
    simp [finish_not_mem_passOn]
  | starting | opening _ | closing _ _ | closed _ | gone => cases hlive

/-! ### Reading the story -/

theorem reads_append (deeds more : List Deed) : reads (deeds ++ more) = reads deeds ++ reads more :=
  List.filterMap_append

theorem envelopes_append (deeds more : List Deed) :
    envelopes (deeds ++ more) = envelopes deeds ++ envelopes more :=
  List.filterMap_append

/-- The guard that a session holds in a phase. -/
def Phase.guard? : Phase → Option Guard
  | .opening guard | .live guard | .closing guard _ | .closed guard => some guard
  | .starting | .gone => none

end ClusterAgent.Agent
