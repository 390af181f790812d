/-
  ClusterAgent/Proofs/Session/Loopback.lean
  =========================================
  **A bridge and a remote process that writes back what it reads.**

  The remote process takes some of its input and writes all of that back before it takes
  more.  Both pipes are bounded.  Nothing is lost or changes its order on the way round
  (`Sound.order`), but the way can close: in the middle of a message a bridge reads no
  output, so when both pipes are full and the process has bytes in its hand, the two wait
  for each other, and no later message or size helps (`Locked`, `locked_stays`).

  That is the only way to get stuck, and it takes more than fits into both pipes: as long as at
  most `room + capacity + 1` bytes are on the way, something can be done; one byte more, in one
  message, and there is a schedule after which nothing can (`loopback_locks_only_when_full`).
-/
import ClusterAgent.Proofs.Session.Turns
import Mathlib.Tactic.ByContra

namespace ClusterAgent.Session

/-! ### The loop -/

/-- A bridge with its stream, and the process at the other end of it. -/
structure Loopback where
  inbox : Inbox
  terminal : Terminal
  /-- What the process has taken and not written back. -/
  hand : List UInt8
  /-- What was handed over as input, and what has come back as output. -/
  sent : List UInt8
  returned : List UInt8

namespace Loopback

def fresh : Loopback := ⟨Inbox.empty, Terminal.fresh, [], [], []⟩

inductive Move where
  | send (message : List UInt8)
  | resize (size : Cluster.TerminalSize)
  | bridge
  /-- The process takes so many bytes of its input. -/
  | take (n : Nat)
  | giveBack (n : Nat)

/-- Whether the bridge or the process makes a move, not somebody who hands something over. -/
def Move.isWork : Move → Bool
  | .send _ | .resize _ => false
  | .bridge | .take _ | .giveBack _ => true

/-- The bytes of output that have not been read. -/
def output (s : Loopback) : List UInt8 := s.terminal.output.pieces.flatten

/-- One move, if it can be made: `room` bytes may wait as input and `capacity` bytes as output. -/
def step? (room capacity : Nat) (s : Loopback) : Move → Option Loopback
  | .send message =>
    some { s with
      inbox := { s.inbox with inputs := s.inbox.inputs ++ [message] }
      sent := s.sent ++ message }
  | .resize size => some { s with inbox := { s.inbox with sizes := s.inbox.sizes ++ [size] } }
  | .bridge =>
    match Shell.turnWithin room s.inbox s.terminal with
    | .went inbox terminal read =>
      some { s with inbox, terminal, returned := s.returned ++ read.flatten }
    | .idle | .stopped _ => none
  | .take n =>
    if s.hand = [] ∧ 0 < n ∧ n ≤ s.terminal.input.waiting.length then
      some { s with
        hand := s.terminal.input.waiting.take n
        terminal := { s.terminal with
          input := { s.terminal.input with waiting := s.terminal.input.waiting.drop n } } }
    else none
  | .giveBack n =>
    if 0 < n ∧ n ≤ s.hand.length ∧ s.output.length + n ≤ capacity then
      some { s with
        hand := s.hand.drop n
        terminal := { s.terminal with output := s.terminal.output.write (s.hand.take n) } }
    else none

inductive Reachable (room capacity : Nat) : Loopback → Prop where
  | fresh : Reachable room capacity fresh
  | step {s s' : Loopback} (m : Move) (hs : Reachable room capacity s)
      (hstep : s.step? room capacity m = some s') : Reachable room capacity s'

/-- The bridge or the process can do something. -/
def CanGoOn (room capacity : Nat) (s : Loopback) : Prop :=
  ∃ m : Move, m.isWork = true ∧ (s.step? room capacity m).isSome

/-- The bridge waits for room for its input while the process waits for room for its output. -/
structure Locked (room capacity : Nat) (s : Loopback) : Prop where
  writing : s.inbox.writing ≠ []
  inputFull : room ≤ s.terminal.input.waiting.length
  hand : s.hand ≠ []
  outputFull : capacity ≤ s.output.length

theorem step?_bridge {room capacity : Nat} {s : Loopback} {inbox : Inbox} {terminal : Terminal}
    {read : List (List UInt8)}
    (hturn : Shell.turnWithin room s.inbox s.terminal = .went inbox terminal read) :
    s.step? room capacity .bridge =
      some { s with inbox, terminal, returned := s.returned ++ read.flatten } := by
  simp only [step?, hturn]

/-! ### What every move keeps -/

/-- Neither side has closed, no pipe holds more than it may, and what is on the way is in order. -/
structure Sound (room capacity : Nat) (s : Loopback) : Prop where
  isOpen : s.terminal.input.isOpen = true
  notEnding : s.terminal.output.ending = none
  inputFits : s.terminal.input.waiting.length ≤ room
  outputFits : s.output.length ≤ capacity
  order : s.returned ++ s.output ++ s.hand ++ s.terminal.input.waiting ++ s.inbox.writing ++
    s.inbox.inputs.flatten = s.sent

variable {room capacity : Nat} {s s' : Loopback}

theorem sound_fresh : Sound room capacity fresh where
  isOpen := rfl
  notEnding := rfl
  inputFits := Nat.zero_le _
  outputFits := Nat.zero_le _
  order := rfl

theorem ending_of_read {source rest : Source} {bytes : List UInt8}
    (h : source.read = .bytes bytes rest) : rest.ending = source.ending := by
  unfold Source.read at h
  split at h
  · cases h
    rfl
  · split at h <;> cases h

/-- Some of a message goes into the pipe; the rest is what is being written from then on. -/
theorem Sound.fill (h : Sound room capacity s) {inbox : Inbox} (message : List UInt8)
    (hwriting : inbox.writing = message.drop (s.terminal.input.free room))
    (hbytes : message ++ inbox.inputs.flatten = s.inbox.writing ++ s.inbox.inputs.flatten) :
    Sound room capacity { s with
      inbox, terminal := { s.terminal with input := s.terminal.input.fill room message } } := by
  constructor
  · exact h.isOpen
  · exact h.notEnding
  · have hfits := h.inputFits
    rw [Sink.length_fill, Sink.free]
    omega
  · exact h.outputFits
  · have hmoved := Sink.fill_append_drop room s.terminal.input message
    have horder := h.order
    simp only [output, List.append_assoc] at horder ⊢
    rw [← horder, hwriting, ← hbytes, ← List.append_assoc _ (message.drop _), hmoved,
      List.append_assoc]

/-- A turn moves bytes along the loop and keeps them in order. -/
theorem Sound.turn (h : Sound room capacity s) {inbox : Inbox} {terminal : Terminal}
    {read : List (List UInt8)}
    (hturn : Shell.turnWithin room s.inbox s.terminal = .went inbox terminal read) :
    Sound room capacity { s with inbox, terminal, returned := s.returned ++ read.flatten } := by
  have hdoes := Shell.does_turnWithin room s.inbox s.terminal
  rw [hturn] at hdoes
  have horder := h.order
  cases hdoes with
  | resizes size rest hwriting hsizes =>
    have hresize : (s.terminal.resize size).input = s.terminal.input ∧
        (s.terminal.resize size).output = s.terminal.output := by
      rw [Terminal.resize]
      split <;> exact ⟨rfl, rfl⟩
    constructor
    · exact hresize.1 ▸ h.isOpen
    · exact hresize.2 ▸ h.notEnding
    · exact hresize.1 ▸ h.inputFits
    · simpa only [output, hresize.2] using h.outputFits
    · simpa only [output, hresize.1, hresize.2, List.flatten_nil, List.append_nil] using horder
  | reads bytes rest hwriting hsizes hread =>
    obtain ⟨-, hbytes⟩ := Source.read_bytes hread
    constructor
    · exact h.isOpen
    · exact (ending_of_read hread).trans h.notEnding
    · exact h.inputFits
    · have hfits := h.outputFits
      rw [output, hbytes, List.length_append] at hfits
      exact Nat.le_trans (Nat.le_add_left _ _) hfits
    · simpa only [output, hbytes, List.flatten_cons, List.flatten_nil, List.append_nil,
        List.append_assoc] using horder
  | begins message rest hwriting hsizes hread hinputs hopen =>
    rw [List.flatten_nil, List.append_nil]
    refine h.fill message rfl ?_
    rw [hwriting, hinputs]
    rfl
  | proceeds hwriting hopen hroom =>
    rw [List.flatten_nil, List.append_nil]
    exact h.fill s.inbox.writing rfl rfl

theorem output_write (source : Source) (bytes : List UInt8) :
    (source.write bytes).pieces.flatten = source.pieces.flatten ++ bytes := by
  simp [Source.write]

theorem Sound.step (h : Sound room capacity s) {m : Move}
    (hstep : s.step? room capacity m = some s') : Sound room capacity s' := by
  have horder := h.order
  cases m with
  | send message =>
    cases hstep
    refine ⟨h.isOpen, h.notEnding, h.inputFits, h.outputFits, ?_⟩
    simp only [output, List.flatten_append, List.flatten_cons, List.flatten_nil, List.append_nil,
      ← List.append_assoc] at horder ⊢
    rw [horder]
  | resize size =>
    cases hstep
    exact ⟨h.isOpen, h.notEnding, h.inputFits, h.outputFits, horder⟩
  | bridge =>
    simp only [step?] at hstep
    split at hstep
    · rename_i inbox terminal read hturn
      cases hstep
      exact h.turn hturn
    · cases hstep
    · cases hstep
  | take n =>
    simp only [step?] at hstep
    split at hstep
    · rename_i hcan
      cases hstep
      refine ⟨h.isOpen, h.notEnding, ?_, h.outputFits, ?_⟩
      · rw [List.length_drop]
        exact Nat.le_trans (Nat.sub_le _ _) h.inputFits
      · rw [hcan.1, List.append_nil] at horder
        simp only [output, List.append_assoc] at horder ⊢
        rw [← horder, ← List.append_assoc (List.take n _), List.take_append_drop]
    · cases hstep
  | giveBack n =>
    simp only [step?] at hstep
    split at hstep
    · rename_i hcan
      cases hstep
      refine ⟨h.isOpen, h.notEnding, h.inputFits, ?_, ?_⟩
      · rw [output, output_write, List.length_append, List.length_take_of_le hcan.2.1]
        exact hcan.2.2
      · simp only [output, output_write, List.append_assoc] at horder ⊢
        rw [← horder, ← List.append_assoc (List.take n _), List.take_append_drop]
    · cases hstep

theorem Reachable.sound (h : Reachable room capacity s) : Sound room capacity s := by
  induction h with
  | fresh => exact sound_fresh
  | step m hs hstep ih => exact ih.step hstep

/-! ### Getting stuck -/

theorem bridge_isSome_iff (h : Sound room capacity s) :
    (s.step? room capacity .bridge).isSome = true ↔
      Shell.turnWithin room s.inbox s.terminal ≠ .idle := by
  have hdoes := Shell.does_turnWithin room s.inbox s.terminal
  simp only [step?]
  split
  · simp_all
  · simp_all
  · rename_i ending hturn
    rw [hturn] at hdoes
    cases hdoes with
    | ends _ hwriting hsizes hread =>
      have hending := Source.ending_of_read_ended hread
      rw [h.notEnding] at hending
      cases hending
    | breaks hclosed =>
      rw [h.isOpen] at hclosed
      cases hclosed

theorem Locked.not_canGoOn (h : Locked room capacity s) (hsound : Sound room capacity s) :
    ¬ s.CanGoOn room capacity := by
  rintro ⟨m, hwork, hsome⟩
  cases m with
  | send message => cases hwork
  | resize size => cases hwork
  | bridge =>
    rw [bridge_isSome_iff hsound] at hsome
    exact hsome (Shell.turnWithin_of_full h.writing hsound.isOpen h.inputFull)
  | take n =>
    rw [step?, if_neg (fun hcan => h.hand hcan.1)] at hsome
    cases hsome
  | giveBack n =>
    have hfull := h.outputFull
    rw [step?, if_neg (by omega)] at hsome
    cases hsome

/-- Whoever hands something over to a bridge that is locked does not unlock it. -/
theorem locked_stays (h : Locked room capacity s) (hsound : Sound room capacity s) {m : Move}
    (hstep : s.step? room capacity m = some s') : Locked room capacity s' := by
  cases hwork : m.isWork with
  | true => exact absurd ⟨m, hwork, by rw [hstep]; rfl⟩ (h.not_canGoOn hsound)
  | false =>
    cases m with
    | send message =>
      cases hstep
      exact ⟨h.writing, h.inputFull, h.hand, h.outputFull⟩
    | resize size =>
      cases hstep
      exact ⟨h.writing, h.inputFull, h.hand, h.outputFull⟩
    | bridge | take n | giveBack n => cases hwork

theorem canGoOn_of_hand (hhand : s.hand ≠ []) (hroom : s.output.length < capacity) :
    s.CanGoOn room capacity := by
  refine ⟨.giveBack 1, rfl, ?_⟩
  have hlength := List.length_pos_iff.mpr hhand
  rw [step?, if_pos ⟨Nat.one_pos, hlength, hroom⟩]
  rfl

theorem canGoOn_of_waiting (hhand : s.hand = []) (hwaiting : s.terminal.input.waiting ≠ []) :
    s.CanGoOn room capacity := by
  refine ⟨.take 1, rfl, ?_⟩
  have hlength := List.length_pos_iff.mpr hwaiting
  rw [step?, if_pos ⟨hhand, Nat.one_pos, hlength⟩]
  rfl

/-- As long as something is on the way, the bridge or the process can do something, unless each of
    them waits for the other. -/
theorem canGoOn_of_not_locked (h : Sound room capacity s) (hroom : 0 < room)
    (hcapacity : 0 < capacity) (hpending : s.returned ≠ s.sent) (hfree : ¬ Locked room capacity s) :
    s.CanGoOn room capacity := by
  by_contra hstuck
  have hidle : Shell.turnWithin room s.inbox s.terminal = .idle := by
    by_contra hturn
    exact hstuck ⟨.bridge, rfl, (bridge_isSome_iff h).mpr hturn⟩
  have hdoes := Shell.does_turnWithin room s.inbox s.terminal
  rw [hidle] at hdoes
  cases hdoes with
  | waits hwriting hopen hfull =>
    by_cases hhand : s.hand = []
    · have hwaiting : s.terminal.input.waiting ≠ [] :=
        List.length_pos_iff.mp (Nat.lt_of_lt_of_le hroom hfull)
      exact hstuck (canGoOn_of_waiting hhand hwaiting)
    · apply hfree
      refine ⟨hwriting, hfull, hhand, ?_⟩
      by_contra hspace
      exact hstuck (canGoOn_of_hand hhand (Nat.lt_of_not_le hspace))
  | rests hwriting hsizes hread hinputs =>
    have houtput : s.output = [] := Source.read_nothing hread
    by_cases hhand : s.hand = []
    · by_cases hwaiting : s.terminal.input.waiting = []
      · have horder := h.order
        rw [houtput, hhand, hwaiting, hwriting, hinputs] at horder
        simp only [List.flatten_nil, List.append_nil] at horder
        exact hpending horder
      · exact hstuck (canGoOn_of_waiting hhand hwaiting)
    · refine hstuck (canGoOn_of_hand hhand ?_)
      rw [houtput]
      exact hcapacity

/-- Where each waits for the other, more is on the way than fits into both pipes. -/
theorem Locked.length (h : Locked room capacity s) (hsound : Sound room capacity s) :
    s.returned.length + room + capacity + 2 ≤ s.sent.length := by
  have horder := congrArg List.length hsound.order
  simp only [List.length_append] at horder
  have hwriting := List.length_pos_iff.mpr h.writing
  have hhand := List.length_pos_iff.mpr h.hand
  have hinput := h.inputFull
  have houtput := h.outputFull
  omega

/-! ### How to get there -/

/-- So many bytes of one long message are held by the process and so many have been given back;
    nobody has read them, and the pipe to the process is full. -/
structure Crowded (room held given : Nat) (message : List UInt8) (s : Loopback) : Prop where
  hand : s.hand.length = held
  output : s.output.length = given
  inputFull : s.terminal.input.waiting.length = room
  writing : s.inbox.writing.length + room + held + given = message.length
  sent : s.sent = message

theorem crowded_start {message : List UInt8} (hlong : room ≤ message.length) :
    ∃ s, Reachable room capacity s ∧ Crowded room 0 0 message s := by
  have hturn : Shell.turnWithin room ⟨[message], [], []⟩ Terminal.fresh =
      .went ⟨[], [], message.drop room⟩ { Terminal.fresh with
        input := Sink.fresh.fill room message } [] :=
    Shell.writeOutWithin_of_open (.inr rfl)
  have hsent : Reachable room capacity
      { fresh with inbox := ⟨[message], [], []⟩, sent := message } :=
    .step (.send message) .fresh rfl
  refine ⟨_, hsent.step .bridge (step?_bridge hturn), ?_⟩
  constructor
  · rfl
  · rfl
  · rw [Sink.length_fill]
    simp [Sink.free, Sink.fresh, hlong]
  · simp [hlong]
  · rfl

/-- The process picks up one byte, and the bridge fills the gap. -/
theorem Crowded.pickUp {given : Nat} {message : List UInt8} (h : Crowded room 0 given message s)
    (hs : Reachable room capacity s) (hroom : 0 < room)
    (hlong : room + given + 2 ≤ message.length) :
    ∃ s', Reachable room capacity s' ∧ Crowded room 1 given message s' := by
  have hwriting := h.writing
  have hhand := List.eq_nil_of_length_eq_zero h.hand
  have hone : 1 ≤ s.terminal.input.waiting.length := h.inputFull ▸ hroom
  have htaken := hs.step (.take 1) (if_pos ⟨hhand, Nat.one_pos, hone⟩)
  have hturn := @Shell.turnWithin_of_room room s.inbox
    { s.terminal with
      input := { s.terminal.input with waiting := s.terminal.input.waiting.drop 1 } }
    (List.length_pos_iff.mp (by omega)) hs.sound.isOpen
    (by simp only [List.length_drop, h.inputFull]; omega)
  refine ⟨_, htaken.step .bridge (step?_bridge hturn), ?_⟩
  have hfree : Sink.free room { s.terminal.input with
      waiting := s.terminal.input.waiting.drop 1 } = 1 := by
    simp only [Sink.free, List.length_drop, h.inputFull]
    omega
  constructor
  · exact List.length_take_of_le hone
  · exact h.output
  · simp only [Sink.length_fill, hfree, List.length_drop, h.inputFull]
    omega
  · simp only [hfree, List.length_drop]
    omega
  · exact h.sent

/-- The process gives its byte back. -/
theorem Crowded.putDown {given : Nat} {message : List UInt8} (h : Crowded room 1 given message s)
    (hs : Reachable room capacity s) (hspace : given < capacity) :
    ∃ s', Reachable room capacity s' ∧ Crowded room 0 (given + 1) message s' := by
  have hwriting := h.writing
  have hone : 1 ≤ s.hand.length := Nat.le_of_eq h.hand.symm
  refine ⟨_, hs.step (.giveBack 1) (if_pos ⟨Nat.one_pos, hone, h.output ▸ hspace⟩), ?_⟩
  constructor
  · rw [List.length_drop, h.hand]
  · show (s.terminal.output.write (s.hand.take 1)).pieces.flatten.length = given + 1
    rw [output_write, List.length_append, List.length_take_of_le hone]
    exact congrArg (· + 1) h.output
  · exact h.inputFull
  · show s.inbox.writing.length + room + 0 + (given + 1) = message.length
    omega
  · exact h.sent

/-- Byte by byte the process fills the pipe for its output, which nobody reads meanwhile. -/
theorem crowded_reachable {message : List UInt8} (hroom : 0 < room)
    (hlong : room + capacity + 2 ≤ message.length) {given : Nat} (hgiven : given ≤ capacity) :
    ∃ s, Reachable room capacity s ∧ Crowded room 0 given message s := by
  induction given with
  | zero => exact crowded_start (by omega)
  | succ given ih =>
    obtain ⟨s, hs, hcrowded⟩ := ih (by omega)
    obtain ⟨s', hs', hcrowded'⟩ := hcrowded.pickUp hs hroom (by omega)
    exact hcrowded'.putDown hs' hgiven

/-- A message that does not fit into both pipes can lock the loop. -/
theorem locked_reachable {message : List UInt8} (hroom : 0 < room)
    (hlong : room + capacity + 2 ≤ message.length) :
    ∃ s, Reachable room capacity s ∧ s.sent = message ∧ Locked room capacity s := by
  obtain ⟨s, hs, hcrowded⟩ := crowded_reachable hroom hlong (Nat.le_refl capacity)
  obtain ⟨s', hs', hcrowded'⟩ := hcrowded.pickUp hs hroom hlong
  have hwriting := hcrowded'.writing
  refine ⟨s', hs', hcrowded'.sent, ?_⟩
  constructor
  · exact List.length_pos_iff.mp (by omega)
  · exact Nat.le_of_eq hcrowded'.inputFull.symm
  · exact List.length_pos_iff.mp (hcrowded'.hand ▸ Nat.one_pos)
  · exact Nat.le_of_eq hcrowded'.output.symm

/-! ### When the loop locks -/

/-- What happens to input that is written back, where `room` bytes may wait as input and `capacity`
    bytes as output. -/
structure LocksWhenFull (room capacity : Nat) : Prop where
  /-- Nothing is lost, doubled or changes its order. -/
  order : ∀ s, Reachable room capacity s →
    s.returned ++ s.output ++ s.hand ++ s.terminal.input.waiting ++ s.inbox.writing ++
      s.inbox.inputs.flatten = s.sent
  /-- While something is on the way, the bridge or the process can do something, unless each waits
      for the other. -/
  progress : ∀ s, Reachable room capacity s → s.returned ≠ s.sent →
    (s.CanGoOn room capacity ↔ ¬ Locked room capacity s)
  /-- No more is on the way than both pipes hold and each side has in its hands at least. -/
  short : ∀ s, Reachable room capacity s → s.returned ≠ s.sent →
    s.sent.length ≤ s.returned.length + room + capacity + 1 → s.CanGoOn room capacity
  /-- Whatever is handed over later, two that wait for each other go on doing so. -/
  stays : ∀ s s' m, Reachable room capacity s → Locked room capacity s →
    s.step? room capacity m = some s' → Locked room capacity s'
  long : ∀ message : List UInt8, room + capacity + 2 ≤ message.length →
    ∃ s, Reachable room capacity s ∧ s.sent = message ∧ Locked room capacity s

/-- **The loop locks only when it is full.**  For pipes of any size, any messages and any order of
    the moves. -/
theorem loopback_locks_only_when_full (room capacity : Nat) (hroom : 0 < room)
    (hcapacity : 0 < capacity) : LocksWhenFull room capacity := by
  constructor
  case order =>
    intro s hs
    exact hs.sound.order
  case progress =>
    intro s hs hpending
    constructor
    · intro hgoes hlocked
      exact hlocked.not_canGoOn hs.sound hgoes
    · intro hfree
      exact canGoOn_of_not_locked hs.sound hroom hcapacity hpending hfree
  case short =>
    intro s hs hpending hfew
    apply canGoOn_of_not_locked hs.sound hroom hcapacity hpending
    intro hlocked
    have hmany := hlocked.length hs.sound
    omega
  case stays =>
    intro s s' m hs hlocked hstep
    exact locked_stays hlocked hs.sound hstep
  case long =>
    intro message hlong
    exact locked_reachable hroom hlong

theorem loopback_locks_only_when_full_of_4096 :
    (0 < Sink.room ∧ 0 < 4096) ∧ LocksWhenFull Sink.room 4096 :=
  ⟨by decide, loopback_locks_only_when_full Sink.room 4096 (by decide) (by decide)⟩

/-- With pipes of one byte each, four bytes are enough: one in each pipe, one in each hand. -/
example :
    let moves : List Move := [.send [1, 2, 3, 4], .bridge, .take 1, .bridge, .giveBack 1, .take 1,
      .bridge]
    (moves.foldlM (step? 1 1) fresh).map
      (fun s => (s.output, s.hand, s.terminal.input.waiting, s.inbox.writing)) =
      some ([1], [2], [3], [4]) := by decide

/-- A bridge and a process can wait for each other: with pipes of 4096 bytes, a message of 8194
    bytes gets there, and neither of them has closed or has anything else to do. -/
theorem long_message_locks_loop :
    ∃ s, Reachable Sink.room 4096 s ∧ s.sent = List.replicate 8194 97 ∧
      Shell.turn s.inbox s.terminal = .idle ∧ s.inbox.writing ≠ [] ∧ s.hand ≠ [] ∧
      s.terminal.input.isOpen = true ∧ s.terminal.output.ending = none ∧
      s.returned ≠ s.sent ∧ ¬ s.CanGoOn Sink.room 4096 := by
  have hlong : Sink.room + 4096 + 2 ≤ (List.replicate 8194 (97 : UInt8)).length := by
    rw [List.length_replicate]
    decide
  obtain ⟨s, hs, hsent, hlocked⟩ := locked_reachable (by decide) hlong
  have hsound := hs.sound
  refine ⟨s, hs, hsent, ?_, hlocked.writing, hlocked.hand, hsound.isOpen, hsound.notEnding, ?_,
    hlocked.not_canGoOn hsound⟩
  · exact Shell.turnWithin_of_full hlocked.writing hsound.isOpen hlocked.inputFull
  · intro hreturned
    have hmany := hlocked.length hsound
    rw [hreturned] at hmany
    omega

end Loopback

end ClusterAgent.Session
