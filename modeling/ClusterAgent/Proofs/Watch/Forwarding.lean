/-
  ClusterAgent/Proofs/Watch/Forwarding.lean
  =========================================
  **From the cluster tool's output to the outbound queue.**

  A `Feed` is one subscription at work.  Pieces of output are read and decoded, the
  documents of a piece are handled one after the other, and between any two steps the gate
  may be asked to open or close, somebody else may use the queue, or the writer may take an
  envelope from it.  `forwards_while_open` says of every such run what has reached the
  queue: for each document handled while the gate was open one envelope, if the document
  reports a change, and nothing else.
-/
import ClusterAgent.Watch.Decoder
import ClusterAgent.Watch.Gate
import ClusterAgent.Proofs.Outbound
import ClusterAgent.Proofs.Json.Streams

namespace ClusterAgent.Watch

open Json (IsText)

/-! ### What is to be forwarded -/

/-- What the cluster tool and the agent call a change. -/
def words : Change → String × String
  | .add => ("ADDED", "add")
  | .update => ("MODIFIED", "update")
  | .delete => ("DELETED", "delete")

/-- The document reports a change and brings the object. -/
def Reports (document : Json) (change : Change) (object : Json) : Prop :=
  document.field? "type" = some (.string (words change).1) ∧
    document.field? "object" = some object

/-- The envelope that tells a change of an object of the kind with this label. -/
def report (label : String) (change : Change) (object : Json) : Envelope :=
  ⟨.watch, "", .object [("event", .string (words change).2), ("obj", .string label),
    ("resource", object)]⟩

/-- What a document that was handled while the gate was open, or closed, must have caused. -/
def IsOutcome (label : String) (handled : Json × Bool) (out : List Envelope) : Prop :=
  (∃ change object, handled.2 = true ∧ Reports handled.1 change object ∧
      out = [report label change object]) ∨
    ((handled.2 = true → ∀ change object, ¬Reports handled.1 change object) ∧ out = [])

/-- What a gate request asks for, if it is valid. -/
def asked? (params : Json) : Option Bool :=
  match (SetParams.schema.decodeLenient params).action with
  | "open" => some true
  | "close" => some false
  | _ => none

/-- Whether an envelope tells a change of the kind with this label. -/
def concerns (label : String) (e : Envelope) : Bool :=
  e.channel == .watch && e.data.field? "obj" == some (.string label)

/-! ### The subscription -/

/-- One subscription at work, with the gate and the queue that it shares. -/
structure Feed where
  decoder : Decoder
  /-- The documents of the last piece that are still to be handled. -/
  waiting : List Json
  gate : Gate
  outbound : Outbound
  /-- What the writer has taken from the queue. -/
  taken : List Envelope

namespace Feed

inductive Event where
  | read (piece : List UInt8)
  /-- The next document is handed to the callbacks of the kind. -/
  | handle
  /-- A gate request is handled. -/
  | toggle (params : Json)
  /-- Somebody else sends an envelope. -/
  | elsewhere (e : Envelope)
  /-- The writer takes an envelope. -/
  | depart

def start (capacity : Nat) : Feed :=
  ⟨Decoder.fresh, [], Gate.closed, Outbound.ofCapacity capacity, []⟩

/-- One event; `none` if it is not its turn.  A piece is read only when the documents of the one
    before are handled. -/
def step? (label : String) (f : Feed) : Event → Option Feed
  | .read piece =>
    if f.waiting = [] then
      let (documents, decoder) := f.decoder.push piece
      some { f with decoder, waiting := documents }
    else none
  | .handle =>
    match f.waiting with
    | [] => none
    | document :: rest =>
      match change? document with
      | none => some { f with waiting := rest }
      | some (change, object) =>
        some { f with
          waiting := rest
          outbound := f.gate.forward f.outbound ⟨change, label, object⟩ }
  | .toggle params => some { f with gate := (f.gate.setWatch params).1 }
  | .elsewhere e =>
    if concerns label e then none else some { f with outbound := f.outbound.send e }
  | .depart =>
    match f.outbound.receive? with
    | (none, _) => none
    | (some e, outbound) => some { f with outbound, taken := f.taken ++ [e] }

def run (label : String) (f : Feed) (events : List Event) : Option Feed :=
  events.foldlM (step? label) f

/-- The envelopes about the kind that have ever been queued, in order. -/
def forwarded (label : String) (f : Feed) : List Envelope :=
  (f.taken ++ f.outbound.queue).filter (concerns label)

namespace Event

/-- The output read so far. -/
def bytes (events : List Event) : List UInt8 :=
  events.flatMap fun
    | .read piece => piece
    | _ => []

/-- What the most recent valid gate request asked for, given what held before. -/
def isOpen (before : Bool) (events : List Event) : Bool :=
  events.foldl (fun isOpen event =>
    match event with
    | .toggle params => (asked? params).getD isOpen
    | _ => isOpen) before

/-- For each document that was handled, whether the gate was open then. -/
def moments (before : Bool) : List Event → List Bool
  | [] => []
  | .handle :: rest => before :: moments before rest
  | event :: rest => moments (isOpen before [event]) rest

end Event

end Feed

/-! ### Documents and the gate -/

/-- The change that a document of this type tells. -/
theorem change?_of_type {document : Json} {s : String}
    (h : document.field? "type" = some (.string s)) {change : Change} {object : Json} :
    change? document = some (change, object) ↔
      s = (words change).1 ∧ document.field? "object" = some object := by
  unfold change?
  rw [h]
  simp only [Option.bind_some, Json.text?]
  split
  case h_1 heq =>
    obtain rfl := Option.some.inj heq
    cases document.field? "object" <;> cases change <;> simp [words]
  case h_2 heq =>
    obtain rfl := Option.some.inj heq
    cases document.field? "object" <;> cases change <;> simp [words]
  case h_3 heq =>
    obtain rfl := Option.some.inj heq
    cases document.field? "object" <;> cases change <;> simp [words]
  case h_4 hadd hupdate hdelete =>
    have hother : s ≠ (words change).1 := by
      rintro rfl
      cases change
      · exact hadd rfl
      · exact hupdate rfl
      · exact hdelete rfl
    simp [hother]

theorem change?_eq_some_iff {document : Json} {change : Change} {object : Json} :
    change? document = some (change, object) ↔ Reports document change object := by
  unfold Reports
  cases htype : document.field? "type" with
  | none => simp [change?, htype]
  | some value =>
    cases value with
    | string s => simp [change?_of_type htype]
    | _ => simp [change?, htype, Json.text?]

theorem setWatch_isOpen (g : Gate) (params : Json) :
    (g.setWatch params).1.isOpen = (asked? params).getD g.isOpen := by
  unfold Gate.setWatch Gate.requested asked?
  generalize (SetParams.schema.decodeLenient params).action = action
  by_cases hopen : action = "open"
  · simp [hopen]
  by_cases hclose : action = "close"
  · simp [hclose]
  by_cases hblank : action = ""
  · simp [hblank]
  · simp

theorem report_eq_watch (label : String) (change : Change) (object : Json) :
    report label change object = Envelope.watch ⟨change, label, object⟩ := by
  cases change <;> rfl

theorem concerns_report (label : String) (change : Change) (object : Json) :
    concerns label (report label change object) = true := by
  simp [concerns, report, Json.field?, Json.find?]

/-! ### One event -/

/-- A decoder that stands for a reader of the stream returns what the reader does. -/
theorem Decoder.push_of_feed {decoder : Decoder} {c c' : Json.Cursor} {piece pending : List UInt8}
    {documents : List Json} (hrests : c.Rests decoder.pending)
    (hfeed : c.feed piece = some (documents, c')) (hrests' : c'.Rests pending) :
    decoder.push piece = (documents, ⟨pending⟩) := by
  have hagain : Json.Cursor.between.feed (decoder.pending ++ piece) = some (documents, c') := by
    rw [Json.Cursor.feed_append, hrests.again]
    simp [hfeed]
  have hscan : Json.documents (decoder.pending ++ piece) = (documents, .pending pending) := by
    unfold Json.documents
    rw [Json.Cursor.scan_of_feed hagain, hrests'.finish]
    simp
  unfold Decoder.push
  rw [hscan]

namespace Feed

open Event (bytes isOpen moments)

variable {label : String} {f f' : Feed} {event : Event}

/-- What an event adds to the envelopes about the kind. -/
def adds (label : String) (f : Feed) : Event → List Envelope
  | .handle =>
    match f.waiting with
    | [] => []
    | document :: _ =>
      match change? document with
      | none => []
      | some (change, object) => f.gate.pass ⟨change, label, object⟩
  | _ => []

theorem read_cases {piece : List UInt8} (h : f.step? label (.read piece) = some f') :
    f.waiting = [] ∧
      f' = { f with
        decoder := (f.decoder.push piece).2
        waiting := (f.decoder.push piece).1 } := by
  change (if f.waiting = [] then _ else none) = some f' at h
  split at h
  case isTrue hnone => exact ⟨hnone, (Option.some.inj h).symm⟩
  case isFalse => cases h

theorem handle_cases (h : f.step? label .handle = some f') :
    ∃ document rest, f.waiting = document :: rest ∧
      f' = { f with waiting := rest, outbound := f.outbound.sendAll (f.adds label .handle) } := by
  simp only [step?] at h
  split at h
  case h_1 => cases h
  case h_2 document rest hwaiting =>
    refine ⟨document, rest, hwaiting, ?_⟩
    simp only [adds, hwaiting]
    split at h
    · exact (Option.some.inj h).symm
    · exact (Option.some.inj h).symm

theorem elsewhere_cases {e : Envelope} (h : f.step? label (.elsewhere e) = some f') :
    concerns label e = false ∧ f' = { f with outbound := f.outbound.sendAll [e] } := by
  change (if concerns label e then none else _) = some f' at h
  split at h
  case isTrue => cases h
  case isFalse hother => exact ⟨Bool.eq_false_iff.mpr hother, (Option.some.inj h).symm⟩

theorem depart_cases (h : f.step? label .depart = some f') :
    ∃ e rest, f.outbound.queue = e :: rest ∧
      f' = { f with
        outbound := { f.outbound with queue := rest }
        taken := f.taken ++ [e] } := by
  simp only [step?, Outbound.receive?] at h
  cases hqueue : f.outbound.queue with
  | nil =>
    rw [hqueue] at h
    cases h
  | cons e rest =>
    rw [hqueue] at h
    exact ⟨e, rest, rfl, (Option.some.inj h).symm⟩

theorem filter_pass (g : Gate) (change : Change) (object : Json) :
    (g.pass ⟨change, label, object⟩).filter (concerns label) = g.pass ⟨change, label, object⟩ := by
  unfold Gate.pass
  split
  · rw [← report_eq_watch, List.filter_cons, if_pos (concerns_report label change object)]
    rfl
  · rfl

theorem filter_adds (label : String) (f : Feed) (event : Event) :
    (f.adds label event).filter (concerns label) = f.adds label event := by
  unfold adds
  split
  · split
    · rfl
    · split
      · rfl
      · exact filter_pass _ _ _
  · rfl

/-- If nothing has been evicted, an event adds to the envelopes about the kind what it sends about
    it. -/
theorem forwarded_step (h : f.step? label event = some f') (hroom : f'.outbound.dropped = 0) :
    f.outbound.dropped = 0 ∧ f'.forwarded label = f.forwarded label ++ f.adds label event := by
  unfold forwarded
  cases event with
  | read piece =>
    obtain ⟨-, rfl⟩ := read_cases h
    exact ⟨hroom, (List.append_nil _).symm⟩
  | handle =>
    obtain ⟨document, rest, -, rfl⟩ := handle_cases h
    obtain ⟨hbefore, hqueue⟩ := Outbound.sendAll_of_dropped_eq_zero hroom
    refine ⟨hbefore, ?_⟩
    rw [hqueue, ← List.append_assoc, List.filter_append, filter_adds]
  | toggle params =>
    obtain rfl := Option.some.inj h
    exact ⟨hroom, (List.append_nil _).symm⟩
  | elsewhere e =>
    obtain ⟨hother, rfl⟩ := elsewhere_cases h
    obtain ⟨hbefore, hqueue⟩ := Outbound.sendAll_of_dropped_eq_zero hroom
    refine ⟨hbefore, ?_⟩
    rw [hqueue, ← List.append_assoc, List.filter_append]
    simp [hother, adds]
  | depart =>
    obtain ⟨e, rest, hqueue, rfl⟩ := depart_cases h
    exact ⟨hroom, by simp [hqueue, adds]⟩

/-- The callbacks do with a document what the gate lets them do. -/
theorem isOutcome_adds {document : Json} {rest : List Json}
    (hwaiting : f.waiting = document :: rest) :
    IsOutcome label (document, f.gate.isOpen) (f.adds label .handle) := by
  simp only [adds, hwaiting]
  split
  case h_1 hchange =>
    refine .inr ⟨fun _ change object hreports => ?_, rfl⟩
    rw [change?_eq_some_iff.mpr hreports] at hchange
    cases hchange
  case h_2 change object hchange =>
    unfold Gate.pass
    cases hopen : f.gate.isOpen with
    | true =>
      refine .inl ⟨change, object, rfl, change?_eq_some_iff.mp hchange, ?_⟩
      rw [report_eq_watch]
      rfl
    | false => exact .inr ⟨nofun, rfl⟩

/-! ### Runs -/

@[simp] theorem bytes_append (events more : List Event) :
    bytes (events ++ more) = bytes events ++ bytes more := by
  simp [bytes]

theorem isOpen_append (before : Bool) (events more : List Event) :
    isOpen before (events ++ more) = isOpen (isOpen before events) more := by
  simp [isOpen]

theorem moments_append (before : Bool) (events more : List Event) :
    moments before (events ++ more) =
      moments before events ++ moments (isOpen before events) more := by
  induction events generalizing before with
  | nil => rfl
  | cons event rest ih =>
    have hopen : isOpen before (event :: rest) = isOpen (isOpen before [event]) rest :=
      isOpen_append before [event] rest
    rw [hopen]
    cases event <;> simp [moments, ih, isOpen]

theorem zip_append_next {docs : List Json} {handled : List Bool} {document : Json}
    {rest : List Json} (h : document :: rest <+: docs.drop handled.length) (moment : Bool) :
    docs.zip (handled ++ [moment]) = docs.zip handled ++ [(document, moment)] := by
  induction handled generalizing docs with
  | nil =>
    obtain ⟨later, hdocs⟩ := h
    rw [List.length_nil, List.drop_zero] at hdocs
    simp [← hdocs]
  | cons first handled ih =>
    cases docs with
    | nil => simp at h
    | cons d docs =>
      rw [List.length_cons, List.drop_succ_cons] at h
      simp [ih h]

/-- What holds of a subscription after it has read this output and handled documents while the gate
    was open or closed as listed.  The decoder stands where a reader of all that output stands, the
    documents decoded so far are those handled and those waiting, and what was forwarded is what the
    handled ones ought to cause. -/
structure Faithful (label : String) (texts : List (List UInt8)) (docs : List Json)
    (output : List UInt8) (handled : List Bool) (gateOpen : Bool) (f : Feed) : Prop where
  place : ∃ c, c.Rests f.decoder.pending ∧
    Json.Cursor.between.feed output = some (docs.take (handled.length + f.waiting.length), c)
  count : handled.length + f.waiting.length ≤ docs.length
  waiting : f.waiting <+: docs.drop handled.length
  prompt : ∀ i ≤ texts.length, (texts.take i).flatten <+: output →
    i ≤ handled.length + f.waiting.length
  gate : f.gate.isOpen = gateOpen
  outcome : ∃ outs, List.Forall₂ (IsOutcome label) (docs.zip handled) outs ∧
    f.forwarded label = outs.flatten

variable {texts : List (List UInt8)} {docs : List Json} {output : List UInt8}
  {handled : List Bool} {gateOpen : Bool}

theorem faithful_start (label : String) (capacity : Nat)
    (htexts : List.Forall₂ IsText texts docs) :
    Faithful label texts docs [] [] false (start capacity) where
  place := ⟨.between, Json.Cursor.between_rests, rfl⟩
  count := Nat.zero_le _
  waiting := List.nil_prefix
  prompt i hi hlead := by
    obtain ⟨n, c, pending, hfeed, -, hn, hprompt⟩ :=
      Json.Cursor.feed_texts htexts List.nil_prefix
    have hnone : [] = docs.take n := (Prod.mk.inj (Option.some.inj hfeed)).1
    have hlength := congrArg List.length hnone
    simp only [List.length_nil, List.length_take] at hlength
    have hle := hprompt i hi hlead
    simp only [start, List.length_nil]
    omega
  gate := rfl
  outcome := ⟨[], by simp, rfl⟩

/-- Reading on completes the documents that a reader of all output would find. -/
theorem Faithful.read {piece : List UInt8}
    (h : Faithful label texts docs output handled gateOpen f)
    (htexts : List.Forall₂ IsText texts docs) (hstep : f.step? label (.read piece) = some f')
    (houtput : output ++ piece <+: texts.flatten) :
    Faithful label texts docs (output ++ piece) handled gateOpen f' := by
  obtain ⟨hnone, rfl⟩ := read_cases hstep
  obtain ⟨c, hrests, hfeed⟩ := h.place
  have hcount := h.count
  rw [hnone, List.length_nil, Nat.add_zero] at hfeed hcount
  obtain ⟨n, c', pending, hall, hrests', hn, hprompt⟩ := Json.Cursor.feed_texts htexts houtput
  obtain ⟨documents, hnew, hdocs⟩ := Json.Cursor.feed_further hall hfeed
  obtain rfl : handled.length + documents.length = n := by
    have hlengths := congrArg List.length hdocs
    simp only [List.length_append, List.length_take] at hlengths
    omega
  rw [Decoder.push_of_feed hrests hnew hrests']
  constructor
  · exact ⟨c', hrests', hall⟩
  · exact hn
  · have htaken := congrArg (List.drop handled.length) hdocs
    rw [List.drop_left' (by simpa using hcount), List.drop_take] at htaken
    rw [htaken]
    exact List.take_prefix _ _
  · exact hprompt
  · exact h.gate
  · exact h.outcome

theorem Faithful.handle (h : Faithful label texts docs output handled gateOpen f)
    (hstep : f.step? label .handle = some f') (hroom : f'.outbound.dropped = 0) :
    Faithful label texts docs output (handled ++ [gateOpen]) gateOpen f' := by
  obtain ⟨-, hforwarded⟩ := forwarded_step hstep hroom
  obtain ⟨document, rest, hwaiting, rfl⟩ := handle_cases hstep
  have hnext : document :: rest <+: docs.drop handled.length := hwaiting ▸ h.waiting
  have hplace : (handled ++ [gateOpen]).length + rest.length =
      handled.length + f.waiting.length := by
    simp only [hwaiting, List.length_append, List.length_cons, List.length_nil]
    omega
  constructor
  · rw [hplace]
    exact h.place
  · rw [hplace]
    exact h.count
  · rw [List.length_append, ← List.drop_drop]
    exact hnext.drop 1
  · rw [hplace]
    exact h.prompt
  · exact h.gate
  · obtain ⟨outs, houts, hall⟩ := h.outcome
    refine ⟨outs ++ [f.adds label .handle], ?_, ?_⟩
    · rw [zip_append_next hnext, ← h.gate]
      exact List.rel_append houts (.cons (isOutcome_adds hwaiting) .nil)
    · rw [hforwarded, hall, List.flatten_append]
      simp

/-- Whatever is neither output nor a document leaves the stream alone. -/
theorem Faithful.other (h : Faithful label texts docs output handled gateOpen f)
    (hstep : f.step? label event = some f') (hroom : f'.outbound.dropped = 0)
    (hread : ∀ piece, event ≠ .read piece) (hhandle : event ≠ .handle) :
    Faithful label texts docs output handled (isOpen gateOpen [event]) f' := by
  obtain ⟨-, hforwarded⟩ := forwarded_step hstep hroom
  have hsame : f'.decoder = f.decoder ∧ f'.waiting = f.waiting ∧
      f'.gate.isOpen = isOpen f.gate.isOpen [event] ∧ f.adds label event = [] := by
    cases event with
    | read piece => exact absurd rfl (hread piece)
    | handle => exact absurd rfl hhandle
    | toggle params =>
      obtain rfl := Option.some.inj hstep
      exact ⟨rfl, rfl, setWatch_isOpen _ _, rfl⟩
    | elsewhere e =>
      obtain ⟨-, rfl⟩ := elsewhere_cases hstep
      exact ⟨rfl, rfl, rfl, rfl⟩
    | depart =>
      obtain ⟨e, rest, -, rfl⟩ := depart_cases hstep
      exact ⟨rfl, rfl, rfl, rfl⟩
  obtain ⟨hdecoder, hwaiting, hgate, hnone⟩ := hsame
  constructor
  · rw [hdecoder, hwaiting]
    exact h.place
  · rw [hwaiting]
    exact h.count
  · rw [hwaiting]
    exact h.waiting
  · rw [hwaiting]
    exact h.prompt
  · rw [hgate, h.gate]
  · rw [hforwarded, hnone, List.append_nil]
    exact h.outcome

theorem Faithful.step (h : Faithful label texts docs output handled gateOpen f)
    (htexts : List.Forall₂ IsText texts docs) (hstep : f.step? label event = some f')
    (houtput : output ++ bytes [event] <+: texts.flatten) (hroom : f'.outbound.dropped = 0) :
    Faithful label texts docs (output ++ bytes [event]) (handled ++ moments gateOpen [event])
      (isOpen gateOpen [event]) f' := by
  cases event with
  | read piece =>
    have hpiece : bytes [.read piece] = piece := List.append_nil piece
    rw [hpiece] at houtput ⊢
    simpa [moments, isOpen] using h.read htexts hstep houtput
  | handle => simpa [bytes, moments, isOpen] using h.handle hstep hroom
  | toggle | elsewhere | depart =>
    simpa [bytes, moments] using h.other hstep hroom nofun nofun

theorem faithful_run {capacity : Nat} {events : List Event}
    (htexts : List.Forall₂ IsText texts docs)
    (hrun : (start capacity).run label events = some f)
    (hbytes : bytes events <+: texts.flatten) (hroom : f.outbound.dropped = 0) :
    Faithful label texts docs (bytes events) (moments false events) (isOpen false events) f := by
  induction events using List.reverseRecOn generalizing f with
  | nil =>
    obtain rfl := Option.some.inj hrun
    exact faithful_start label capacity htexts
  | append_singleton events event ih =>
    rw [run, List.foldlM_append] at hrun
    obtain ⟨before, hbefore, hlast⟩ := Option.bind_eq_some_iff.mp hrun
    have hstep : before.step? label event = some f := by simpa using hlast
    rw [bytes_append] at hbytes
    have h := ih hbefore ((List.prefix_append _ _).trans hbytes) (forwarded_step hstep hroom).1
    rw [bytes_append, moments_append, isOpen_append]
    exact h.step htexts hstep hbytes hroom

end Feed

open Feed.Event (bytes moments)

/-- **Changes are forwarded while the gate is open.**  The tool writes one text after the other,
    each with one object in which no number has more than 300 digits; its output is read in any
    pieces.  Between any two steps the gate may be asked to open or close, validly or not, and the
    queue may be used by others, as long as nothing is evicted from it.  Then the documents handled
    are the first so many of those written.  The envelopes about the kind that were queued are, in
    the same order, one for each of them that reports a change and was handled while the gate was
    open, and no others.  And a document whose text has been read is not held back. -/
theorem forwards_while_open (label : String) (capacity : Nat) {texts : List (List UInt8)}
    {docs : List Json} (htexts : List.Forall₂ IsText texts docs) {events : List Feed.Event}
    {f : Feed} (hrun : (Feed.start capacity).run label events = some f)
    (hbytes : bytes events <+: texts.flatten) (hroom : f.outbound.dropped = 0) :
    (moments false events).length + f.waiting.length ≤ docs.length ∧
      (∃ outs, List.Forall₂ (IsOutcome label) (docs.zip (moments false events)) outs ∧
        f.forwarded label = outs.flatten) ∧
      ∀ i ≤ texts.length, (texts.take i).flatten <+: bytes events →
        i ≤ (moments false events).length + f.waiting.length := by
  have h := Feed.faithful_run htexts hrun hbytes hroom
  exact ⟨h.count, h.outcome, h.prompt⟩

/-- A new object, a bookmark and a removed object, as the tool writes them. -/
def threeTexts : List (List UInt8) :=
  ["\x7b\"type\":\"ADDED\",\"object\":\x7b\"n\":12\x7d\x7d\n".toUTF8.toList,
    "\x7b\"type\":\"BOOKMARK\"\x7d\n".toUTF8.toList,
    "\x7b\"object\":[],\"type\":\"DELETED\"\x7d".toUTF8.toList]

def threeDocs : List Json :=
  [.object [("object", .object [("n", .nat 12)]), ("type", .string "ADDED")],
    .object [("type", .string "BOOKMARK")],
    .object [("object", .array []), ("type", .string "DELETED")]]

/-- The first piece ends within the number, and the gate closes before the object is removed. -/
def threeEvents : List Feed.Event :=
  [.toggle (.object [("action", .string "open")]), .read (threeTexts.flatten.take 32),
    .read (threeTexts.flatten.drop 32), .handle, .toggle (.object [("action", .string "wide")]),
    .handle, .toggle (.object [("action", .string "close")]), .handle]

theorem forwards_while_open_of_three :
    ∃ f, (Feed.start 8).run "pods" threeEvents = some f ∧
      f.forwarded "pods" = [report "pods" .add (.object [("n", .nat 12)])] ∧
      ∃ outs, List.Forall₂ (IsOutcome "pods") (threeDocs.zip (moments false threeEvents)) outs ∧
        f.forwarded "pods" = outs.flatten := by
  have htexts : List.Forall₂ IsText threeTexts threeDocs := by
    refine .cons ⟨?_, rfl, ?_⟩ (.cons ⟨?_, rfl, ?_⟩ (.cons ⟨?_, rfl, ?_⟩ .nil))
    all_goals decide +kernel
  have hbytes : bytes threeEvents <+: threeTexts.flatten := by decide +kernel
  have hends : ((Feed.start 8).run "pods" threeEvents).any fun f =>
      f.outbound.dropped == 0 &&
        f.forwarded "pods" == [report "pods" .add (.object [("n", .nat 12)])] := by
    decide +kernel
  obtain ⟨f, hrun, hf⟩ := Option.any_eq_true _ _ |>.mp hends
  obtain ⟨hroom, hone⟩ := Bool.and_eq_true_iff.mp hf
  exact ⟨f, hrun, eq_of_beq hone,
    (forwards_while_open "pods" 8 htexts hrun hbytes (eq_of_beq hroom)).2.1⟩

end ClusterAgent.Watch
