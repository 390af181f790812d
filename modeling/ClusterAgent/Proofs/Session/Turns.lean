/-
  ClusterAgent/Proofs/Session/Turns.lean
  ======================================
  **Everything that a turn of a bridge can be.**

  A turn is one of eight things, and each says what was the case before it: `Does` lists
  them, and `does_turn` shows that a turn is always on the list.  The room of the pipe to
  the remote process is a parameter here, because a bridge makes no use of what it is; the
  bridge that runs has pipes of `Sink.room` bytes (`turn_eq_turnWithin`).
-/
import ClusterAgent.Proofs.Session.Shell

namespace ClusterAgent.Session

/-! ### Pipes of any size -/

namespace Sink

/-- The room that is left where so many bytes may wait. -/
def free (room : Nat) (s : Sink) : Nat := room - s.waiting.length

/-- The sink once as much of a message has been written as there is room for. -/
def fill (room : Nat) (s : Sink) (message : List UInt8) : Sink :=
  { s with waiting := s.waiting ++ message.take (s.free room) }

def writeWithin (room : Nat) (s : Sink) (bytes : List UInt8) : Write :=
  if bytes = [] then .wrote [] s
  else if s.isOpen then .wrote (bytes.drop (s.free room)) (s.fill room bytes)
  else .broken

/-- What has been written and what is left of a message make up the message. -/
theorem fill_append_drop (room : Nat) (s : Sink) (message : List UInt8) :
    (s.fill room message).waiting ++ message.drop (s.free room) = s.waiting ++ message := by
  simp [fill]

theorem length_fill (room : Nat) (s : Sink) (message : List UInt8) :
    (s.fill room message).waiting.length =
      s.waiting.length + min (s.free room) message.length := by
  simp [fill]

theorem writeWithin_of_open {room : Nat} {s : Sink} {bytes : List UInt8}
    (h : bytes = [] ∨ s.isOpen = true) :
    s.writeWithin room bytes = .wrote (bytes.drop (s.free room)) (s.fill room bytes) := by
  by_cases hnil : bytes = []
  · simp [writeWithin, fill, hnil]
  · simp [writeWithin, hnil, h.resolve_left hnil]

theorem writeWithin_of_closed {room : Nat} {s : Sink} {bytes : List UInt8} (hbytes : bytes ≠ [])
    (hclosed : s.isOpen = false) : s.writeWithin room bytes = .broken := by
  simp [writeWithin, hbytes, hclosed]

end Sink

theorem Source.read_nothing {s : Source} (h : s.read = .nothing) : s.pieces.flatten = [] := by
  unfold Source.read at h
  split at h
  · cases h
  · rename_i hnext
    exact next?_eq_none hnext

theorem Source.ending_of_read_ended {s : Source} {ending : Ending} (h : s.read = .ended ending) :
    s.ending = some ending := by
  unfold Source.read at h
  split at h
  · cases h
  · split at h
    · rename_i hending
      cases h
      exact hending
    · cases h

namespace Shell

def writeOutWithin (room : Nat) (inbox : Inbox) (terminal : Terminal) (message : List UInt8) :
    Turn :=
  match terminal.input.writeWithin room message with
  | .broken => .stopped (.failed Sink.brokenText)
  | .wrote left sink => .went { inbox with writing := left } { terminal with input := sink } []

/-- A turn of a bridge to a remote process that so many bytes may wait for. -/
def turnWithin (room : Nat) (inbox : Inbox) (terminal : Terminal) : Turn :=
  if inbox.writing ≠ [] then
    if terminal.input.isOpen ∧ room ≤ terminal.input.waiting.length then .idle
    else writeOutWithin room inbox terminal inbox.writing
  else
    match inbox.sizes with
    | size :: rest => .went { inbox with sizes := rest } (terminal.resize size) []
    | [] =>
      match terminal.output.read with
      | .bytes bytes rest => .went inbox { terminal with output := rest } [bytes]
      | .ended ending => .stopped ending
      | .nothing =>
        match inbox.inputs with
        | message :: rest => writeOutWithin room { inbox with inputs := rest } terminal message
        | [] => .idle

theorem turn_eq_turnWithin (inbox : Inbox) (terminal : Terminal) :
    turn inbox terminal = turnWithin Sink.room inbox terminal := rfl

/-! ### The turns there are -/

/-- What one turn does, and what must be the case for it. -/
inductive Does (room : Nat) (inbox : Inbox) (terminal : Terminal) : Turn → Prop where
  | resizes (size : Cluster.TerminalSize) (rest : List Cluster.TerminalSize)
      (hwriting : inbox.writing = []) (hsizes : inbox.sizes = size :: rest) :
      Does room inbox terminal (.went { inbox with sizes := rest } (terminal.resize size) [])
  | reads (bytes : List UInt8) (rest : Source) (hwriting : inbox.writing = [])
      (hsizes : inbox.sizes = []) (hread : terminal.output.read = .bytes bytes rest) :
      Does room inbox terminal (.went inbox { terminal with output := rest } [bytes])
  | ends (ending : Ending) (hwriting : inbox.writing = []) (hsizes : inbox.sizes = [])
      (hread : terminal.output.read = .ended ending) :
      Does room inbox terminal (.stopped ending)
  /-- A message is taken from the queue and written as far as there is room. -/
  | begins (message : List UInt8) (rest : List (List UInt8)) (hwriting : inbox.writing = [])
      (hsizes : inbox.sizes = []) (hread : terminal.output.read = .nothing)
      (hinputs : inbox.inputs = message :: rest)
      (hopen : message = [] ∨ terminal.input.isOpen = true) :
      Does room inbox terminal
        (.went { inbox with
            inputs := rest, writing := message.drop (terminal.input.free room) }
          { terminal with input := terminal.input.fill room message } [])
  /-- More of the message that was begun is written. -/
  | proceeds (hwriting : inbox.writing ≠ []) (hopen : terminal.input.isOpen = true)
      (hroom : terminal.input.waiting.length < room) :
      Does room inbox terminal
        (.went { inbox with writing := inbox.writing.drop (terminal.input.free room) }
          { terminal with input := terminal.input.fill room inbox.writing } [])
  | breaks (hclosed : terminal.input.isOpen = false) :
      Does room inbox terminal (.stopped (.failed Sink.brokenText))
  /-- A message was begun, and there is no room for the rest of it. -/
  | waits (hwriting : inbox.writing ≠ []) (hopen : terminal.input.isOpen = true)
      (hfull : room ≤ terminal.input.waiting.length) :
      Does room inbox terminal .idle
  | rests (hwriting : inbox.writing = []) (hsizes : inbox.sizes = [])
      (hread : terminal.output.read = .nothing) (hinputs : inbox.inputs = []) :
      Does room inbox terminal .idle

theorem writeOutWithin_of_open {room : Nat} {inbox : Inbox} {terminal : Terminal}
    {message : List UInt8} (h : message = [] ∨ terminal.input.isOpen = true) :
    writeOutWithin room inbox terminal message =
      .went { inbox with writing := message.drop (terminal.input.free room) }
        { terminal with input := terminal.input.fill room message } [] := by
  simp only [writeOutWithin, Sink.writeWithin_of_open h]

theorem writeOutWithin_of_closed {room : Nat} {inbox : Inbox} {terminal : Terminal}
    {message : List UInt8} (hmessage : message ≠ []) (hclosed : terminal.input.isOpen = false) :
    writeOutWithin room inbox terminal message = .stopped (.failed Sink.brokenText) := by
  simp only [writeOutWithin, Sink.writeWithin_of_closed hmessage hclosed]

theorem turnWithin_of_room {room : Nat} {inbox : Inbox} {terminal : Terminal}
    (hwriting : inbox.writing ≠ []) (hopen : terminal.input.isOpen = true)
    (hroom : terminal.input.waiting.length < room) :
    turnWithin room inbox terminal =
      .went { inbox with writing := inbox.writing.drop (terminal.input.free room) }
        { terminal with input := terminal.input.fill room inbox.writing } [] := by
  rw [turnWithin, if_pos hwriting, if_neg (fun h => Nat.not_le_of_lt hroom h.2),
    writeOutWithin_of_open (.inr hopen)]

theorem turnWithin_of_full {room : Nat} {inbox : Inbox} {terminal : Terminal}
    (hwriting : inbox.writing ≠ []) (hopen : terminal.input.isOpen = true)
    (hfull : room ≤ terminal.input.waiting.length) :
    turnWithin room inbox terminal = .idle := by
  rw [turnWithin, if_pos hwriting, if_pos ⟨hopen, hfull⟩]

/-- A turn in the middle of a message goes on with it, waits for room, or meets nobody. -/
theorem does_turnWithin_of_writing {room : Nat} {inbox : Inbox} {terminal : Terminal}
    (hwriting : inbox.writing ≠ []) :
    Does room inbox terminal (turnWithin room inbox terminal) := by
  cases hopen : terminal.input.isOpen with
  | false =>
    rw [turnWithin, if_pos hwriting, if_neg (by simp [hopen]),
      writeOutWithin_of_closed hwriting hopen]
    exact .breaks hopen
  | true =>
    by_cases hfull : room ≤ terminal.input.waiting.length
    · rw [turnWithin_of_full hwriting hopen hfull]
      exact .waits hwriting hopen hfull
    · have hroom := Nat.lt_of_not_le hfull
      rw [turnWithin_of_room hwriting hopen hroom]
      exact .proceeds hwriting hopen hroom

/-- **A turn is one of those there are.** -/
theorem does_turnWithin (room : Nat) (inbox : Inbox) (terminal : Terminal) :
    Does room inbox terminal (turnWithin room inbox terminal) := by
  by_cases hwriting : inbox.writing = []
  · rw [turnWithin, if_neg (by simp [hwriting])]
    split
    · rename_i size rest hsizes
      exact .resizes size rest hwriting hsizes
    · rename_i hsizes
      split
      · rename_i bytes rest hread
        exact .reads bytes rest hwriting hsizes hread
      · rename_i ending hread
        exact .ends ending hwriting hsizes hread
      · rename_i hread
        split
        · rename_i message rest hinputs
          by_cases hopen : message = [] ∨ terminal.input.isOpen = true
          · rw [writeOutWithin_of_open hopen]
            exact .begins message rest hwriting hsizes hread hinputs hopen
          · rw [not_or, Bool.not_eq_true] at hopen
            rw [writeOutWithin_of_closed hopen.1 hopen.2]
            exact .breaks hopen.2
        · rename_i hinputs
          exact .rests hwriting hsizes hread hinputs
  · exact does_turnWithin_of_writing hwriting

theorem does_turn (inbox : Inbox) (terminal : Terminal) :
    Does Sink.room inbox terminal (turn inbox terminal) :=
  does_turnWithin Sink.room inbox terminal

/-! ### What a turn passes on -/

/-- The sizes that are gone from an inbox. -/
def appliedIn (before after : Inbox) : List Cluster.TerminalSize :=
  before.sizes.take (before.sizes.length - after.sizes.length)

/-- The bytes that have come into the pipe to the remote process. -/
def typedIn (before after : Terminal) : List UInt8 :=
  after.input.waiting.drop before.input.waiting.length

/-- What has left the inbox has come to the terminal, and nothing else has. -/
structure Passes (inbox inbox' : Inbox) (terminal terminal' : Terminal) : Prop where
  sizes : appliedIn inbox inbox' ++ inbox'.sizes = inbox.sizes
  bytes : typedIn terminal terminal' ++ inbox'.writing ++ inbox'.inputs.flatten =
    inbox.writing ++ inbox.inputs.flatten
  pipe : terminal'.input.waiting = terminal.input.waiting ++ typedIn terminal terminal'
  /-- A terminal that takes no sizes is offered them all the same. -/
  offered : terminal'.sizes =
    if terminal.takesSizes then terminal.sizes ++ appliedIn inbox inbox' else terminal.sizes
  takes : terminal'.takesSizes = terminal.takesSizes
  /-- A message is begun only where no size waits. -/
  begun : inbox.sizes = [] ∨
    (typedIn terminal terminal').length + inbox'.writing.length = inbox.writing.length
  /-- No turn both applies a size and writes. -/
  apart : appliedIn inbox inbox' = [] ∨ typedIn terminal terminal' = []

theorem typedIn_fill (room : Nat) (terminal : Terminal) (message : List UInt8) :
    typedIn terminal { terminal with input := terminal.input.fill room message } =
      message.take (terminal.input.free room) := by
  simp [typedIn, Sink.fill]

theorem appliedIn_same {before after : Inbox} (h : after.sizes = before.sizes) :
    appliedIn before after = [] := by
  simp [appliedIn, h]

/-- A turn that writes some of a message, which it has begun or goes on with. -/
theorem passes_fill {inbox inbox' : Inbox} {terminal : Terminal} (message : List UInt8)
    (hsizes : inbox'.sizes = inbox.sizes)
    (hwriting : inbox'.writing = message.drop (terminal.input.free Sink.room))
    (hbytes : message ++ inbox'.inputs.flatten = inbox.writing ++ inbox.inputs.flatten)
    (hbegun : inbox.sizes = [] ∨ message = inbox.writing) :
    Passes inbox inbox' terminal
      { terminal with input := terminal.input.fill Sink.room message } := by
  have htyped := typedIn_fill Sink.room terminal message
  have happlied := appliedIn_same hsizes
  constructor
  · rw [happlied, hsizes]
    rfl
  · rw [htyped, hwriting, List.take_append_drop]
    exact hbytes
  · rw [htyped]
    rfl
  · rw [happlied, List.append_nil, ite_self]
  · rfl
  · refine hbegun.imp_right ?_
    intro hmessage
    rw [htyped, hwriting, ← List.length_append, List.take_append_drop, hmessage]
  · exact .inl happlied

theorem passes_of_turn {inbox inbox' : Inbox} {terminal terminal' : Terminal}
    {read : List (List UInt8)} (h : turn inbox terminal = .went inbox' terminal' read) :
    Passes inbox inbox' terminal terminal' := by
  have hdoes := does_turn inbox terminal
  rw [h] at hdoes
  cases hdoes with
  | resizes size rest hwriting hsizes =>
    have happlied : appliedIn inbox { inbox with sizes := rest } = [size] := by
      simp [appliedIn, hsizes]
    have hinput : (terminal.resize size).input = terminal.input := by
      rw [Terminal.resize]
      split <;> rfl
    have htyped : typedIn terminal (terminal.resize size) = [] := by
      simp [typedIn, hinput]
    constructor
    · rw [happlied, hsizes]
      rfl
    · rw [htyped]
      rfl
    · rw [hinput, htyped, List.append_nil]
    · rw [happlied, Terminal.resize]
      split <;> rfl
    · rw [Terminal.resize]
      split <;> rfl
    · right
      rw [htyped, List.length_nil, Nat.zero_add]
    · exact .inr htyped
  | reads bytes rest hwriting hsizes hread =>
    have htyped : typedIn terminal { terminal with output := rest } = [] :=
      List.drop_eq_nil_of_le (Nat.le_refl _)
    constructor
    · rw [appliedIn_same rfl]
      rfl
    · rw [htyped]
      rfl
    · rw [htyped, List.append_nil]
    · rw [appliedIn_same rfl, List.append_nil, ite_self]
    · rfl
    · exact .inl hsizes
    · exact .inr htyped
  | begins message rest hwriting hsizes hread hinputs hopen =>
    refine passes_fill message rfl rfl ?_ (.inl hsizes)
    rw [hwriting, hinputs]
    rfl
  | proceeds hwriting hopen hroom => exact passes_fill inbox.writing rfl rfl rfl (.inr rfl)

end Shell

end ClusterAgent.Session
