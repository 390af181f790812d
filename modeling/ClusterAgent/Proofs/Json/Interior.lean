/-
  ClusterAgent/Proofs/Json/Interior.lean
  ======================================
  **Inside an object a text may stop anywhere.**

  Between the first brace of an object and its last the reader is `Within`: something is
  open, and a number has only as many digits as were read.  One step keeps this, or it is
  the step that closes the object (`Within.step`).  So wherever the text of an object is
  cut, what is missing is only its rest, and the reader says so: `Within.finish`.
-/
import ClusterAgent.Proofs.Json.Numbers
import ClusterAgent.Json.Reader

namespace ClusterAgent.Json

def isContainer : Json → Bool
  | .array _ | .object _ => true
  | _ => false

namespace Reading

/-! ### Where the reader stands -/

/-- The reader stands within a list or an object.  A number that it is reading has no more than
    so many digits. -/
structure Within (r : Reading) (digits : Nat) : Prop where
  skim : r.skim = false
  stack : r.stack ≠ []
  short : ∀ n, r.stage = .numeral n → n.Short digits

/-- The digits that a number has after one more byte. -/
def digitsAfter (r : Reading) (digits : Nat) (b : UInt8) : Nat :=
  match r.stage with
  | .numeral _ => digits + (Numeral.isDigit b).toNat
  | _ => 0

/-- Whether no number in a text has more digits than the limit. -/
def numbersWithin (limit : Nat) (r : Reading) (digits : Nat) : List UInt8 → Bool
  | [] => true
  | b :: rest =>
    match r.step none b with
    | .more r =>
      decide (r.digitsAfter digits b ≤ limit) && r.numbersWithin limit (r.digitsAfter digits b) rest
    | _ => true

/-- What a step does that starts within an object: it stays there or ends the outermost one. -/
def Step.Inside (digits : Reading → Nat) : Step → Prop
  | .more r => r.Within (digits r)
  | .whole v used => used = true ∧ v.isContainer
  | .stuck _ _ => True

theorem Within.mk_stage {r : Reading} {digits k : Nat} (h : r.Within digits) {stage : Stage}
    (hstage : ∀ n, stage = .numeral n → n.Short k) : Within { r with stage } k :=
  ⟨h.skim, h.stack, hstage⟩

/-! ### One step -/

section Steps

variable {r : Reading} {digits : Nat} {k : Reading → Nat}

theorem deliver_inside {v : Json} {used : Bool} (hskim : r.skim = false)
    (hplace : r.stack ≠ [] ∨ used = true ∧ v.isContainer) : (r.deliver v used).Inside k := by
  unfold deliver
  split
  case h_1 hstack =>
    rcases hplace with hne | hwhole
    · exact absurd hstack hne
    · exact hwhole
  case h_2 => exact ⟨by simp [hskim], List.cons_ne_nil _ _, nofun⟩
  case h_3 => exact ⟨by simp [hskim], List.cons_ne_nil _ _, nofun⟩

theorem Within.close (h : r.Within digits) : r.close.Inside k := by
  unfold Reading.close
  split
  case h_1 => trivial
  case h_2 => exact deliver_inside h.skim (.inr ⟨rfl, rfl⟩)
  case h_3 => exact deliver_inside h.skim (.inr ⟨rfl, rfl⟩)

theorem enter_inside (hskim : r.skim = false) (frame : Frame) {stage : Stage}
    (hstage : ∀ n, stage ≠ .numeral n) : (r.enter frame stage).Inside k := by
  unfold enter
  split
  · trivial
  · exact ⟨hskim, List.cons_ne_nil _ _, fun n hn => absurd hn (hstage n)⟩

theorem Within.begin (h : r.Within digits) (before : Nat) (b : UInt8) :
    (r.begin b).Inside (·.digitsAfter before b) := by
  unfold Reading.begin
  split
  · exact enter_inside h.skim _ nofun
  split
  · exact enter_inside h.skim _ nofun
  split
  · exact h.mk_stage nofun
  split
  · exact h.mk_stage nofun
  split
  · exact h.mk_stage nofun
  split
  · exact h.mk_stage nofun
  split
  case h_1 n hn =>
    refine h.mk_stage fun m hm => ?_
    obtain rfl := Stage.numeral.inj hm
    change n.Short (before + _)
    rw [Nat.add_comm]
    exact (Numeral.short_start hn).weaken before
  case h_2 => trivial

theorem Within.takeKey (h : r.Within digits) (key : String) :
    (Reading.takeKey none r key).Inside k := by
  unfold Reading.takeKey
  split
  case h_1 => exact ⟨h.skim, List.cons_ne_nil _ _, nofun⟩
  case h_2 => trivial

theorem Within.stepPlain (h : r.Within digits) (hstage : ∀ n, r.stage ≠ .numeral n)
    (before : Nat) (b : UInt8) :
    (Reading.stepPlain none r b).Inside (·.digitsAfter before b) := by
  unfold Reading.stepPlain
  split
  case h_1 rest meaning _ =>
    split
    · trivial
    · split
      · exact deliver_inside h.skim (.inl h.stack)
      · trivial
    · split
      · exact h.mk_stage nofun
      · trivial
  case h_2 q _ =>
    split
    · exact h.mk_stage nofun
    · trivial
    · split
      · exact deliver_inside h.skim (.inl h.stack)
      · trivial
  case h_3 q _ =>
    split
    · exact h.mk_stage nofun
    · trivial
    · split
      · exact h.takeKey _
      · trivial
  case h_4 =>
    split
    · exact ⟨h.skim, h.stack, fun n hn => absurd hn (hstage n)⟩
    split
    case h_1 =>
      split
      · exact h.close
      · exact h.begin before b
    case h_2 =>
      split
      · trivial
      · exact h.begin before b
    case h_3 =>
      split
      · exact h.close
      split
      · exact h.mk_stage nofun
      · trivial
    case h_4 =>
      split
      · exact h.mk_stage nofun
      split
      · exact h.close
      · trivial
    case h_5 =>
      split
      · exact h.mk_stage nofun
      split
      · trivial
      · trivial
    case h_6 =>
      split
      · exact h.close
      split
      · exact h.mk_stage nofun
      · trivial
    case h_7 =>
      split
      · exact h.mk_stage nofun
      · trivial
    case h_8 => exact h.begin before b

/-- Within a list or an object, a number ends before what may follow an item or a field. -/
theorem Within.endNumeral (h : r.Within digits) (n : Numeral) :
    (n.value.isSome ∧ ∃ r', r.endNumeral n = .more r' ∧ r'.Within 0 ∧
        (r'.stage = .afterItem ∨ r'.stage = .afterField)) ∨
      n.value = none ∧ ∃ f, r.endNumeral n = .stuck f false := by
  unfold Reading.endNumeral deliver
  rw [h.skim, if_neg Bool.false_ne_true]
  cases n.value with
  | none => exact .inr ⟨rfl, _, rfl⟩
  | some v =>
    refine .inl ⟨rfl, ?_⟩
    dsimp only
    split
    case h_1 hstack => exact absurd hstack h.stack
    case h_2 => exact ⟨_, rfl, ⟨rfl, List.cons_ne_nil _ _, nofun⟩, .inl rfl⟩
    case h_3 => exact ⟨_, rfl, ⟨rfl, List.cons_ne_nil _ _, nofun⟩, .inr rfl⟩

theorem Within.step (h : r.Within digits) (b : UInt8) :
    (r.step none b).Inside (·.digitsAfter digits b) := by
  unfold Reading.step
  split
  case h_1 n hstage =>
    split
    case h_1 n' hstep =>
      refine h.mk_stage fun m hm => ?_
      obtain rfl := Stage.numeral.inj hm
      exact (h.short n hstage).step hstep
    case h_2 => trivial
    case h_3 =>
      rcases h.endNumeral n with ⟨-, r', hr', hwithin, hafter⟩ | ⟨-, f, hstuck⟩
      · rw [hr']
        refine hwithin.stepPlain (fun m hm => ?_) digits b
        rcases hafter with hafter | hafter <;> cases hafter.symm.trans hm
      · rw [hstuck]
        trivial
  case h_2 hstage => exact h.stepPlain hstage digits b

end Steps

end Reading

/-! ### Reading on -/

open Reading (digitsAfter numbersWithin)

variable {r : Reading} {digits : Nat} {d : Json}

theorem onlySpace_ok {v : Json} {seen rest : List UInt8} (h : onlySpace v seen rest = .ok d) :
    v = d ∧ ∀ b ∈ rest, Reading.isSpace b := by
  induction rest generalizing seen with
  | nil => exact ⟨Except.ok.inj h, nofun⟩
  | cons b rest ih =>
    unfold onlySpace at h
    split at h
    case isTrue hspace =>
      obtain ⟨hv, hrest⟩ := ih h
      exact ⟨hv, List.forall_mem_cons.mpr ⟨hspace, hrest⟩⟩
    case isFalse => cases h

/-- What one step contributes to reading a whole document. -/
theorem readFrom_cons {seen rest : List UInt8} {b : UInt8}
    (h : readFrom none r seen (b :: rest) = .ok d) :
    (∃ r', r.step none b = .more r' ∧ readFrom none r' (b :: seen) rest = .ok d) ∨
      (r.step none b = .whole d true ∧ ∀ c ∈ rest, Reading.isSpace c) ∨
      (r.step none b = .whole d false ∧ ∀ c ∈ b :: rest, Reading.isSpace c) := by
  unfold readFrom at h
  split at h
  case h_1 r' hstep => exact .inl ⟨r', hstep, h⟩
  case h_2 v hstep =>
    obtain ⟨rfl, hrest⟩ := onlySpace_ok h
    exact .inr (.inl ⟨hstep, hrest⟩)
  case h_3 v hstep =>
    obtain ⟨rfl, hrest⟩ := onlySpace_ok h
    exact .inr (.inr ⟨hstep, hrest⟩)
  case h_4 => cases h

theorem readFrom_nil {seen : List UInt8} (h : readFrom none r seen [] = .ok d) :
    r.finish = .ok d := by
  unfold readFrom at h
  split at h
  case h_1 v hfinish => rw [hfinish, Except.ok.inj h]
  case h_2 => cases h

theorem numbersWithin_cons {rest : List UInt8} {b : UInt8} {r' : Reading}
    (h : r.numbersWithin Numeral.digitLimit digits (b :: rest)) (hstep : r.step none b = .more r') :
    r'.digitsAfter digits b ≤ Numeral.digitLimit ∧
      r'.numbersWithin Numeral.digitLimit (r'.digitsAfter digits b) rest := by
  unfold numbersWithin at h
  rw [hstep] at h
  simpa using h

namespace Reading

section Numbers

variable {n n' : Numeral} {b : UInt8} {f : Fault} {used : Bool}

theorem step_of_more (hstage : r.stage = .numeral n) (hskim : r.skim = false)
    (hn : n.step true b = .more n') : r.step none b = .more { r with stage := .numeral n' } := by
  simp [step, hstage, hskim, hn]

theorem step_of_stuck (hstage : r.stage = .numeral n) (hskim : r.skim = false)
    (hn : n.step true b = .stuck f) : r.step none b = .stuck f true := by
  simp [step, hstage, hskim, hn]

theorem step_of_ended (hstage : r.stage = .numeral n) (hskim : r.skim = false)
    (hn : n.step true b = .ended) (hend : r.endNumeral n = .stuck f used) :
    r.step none b = .stuck f used := by
  simp [step, hstage, hskim, hn, hend]

end Numbers

/-- A number that is cut off but looks whole is in range, given that the document goes on to be
    read. -/
theorem Within.value_of_read {n : Numeral} {seen rest : List UInt8} (h : r.Within digits)
    (hdigits : digits ≤ Numeral.digitLimit) (hstage : r.stage = .numeral n) (hwhole : n.isWhole)
    (hread : readFrom none r seen rest = .ok d)
    (hnumbers : r.numbersWithin Numeral.digitLimit digits rest) : n.value.isSome := by
  induction rest generalizing r n seen digits with
  | nil =>
    have hfinish := readFrom_nil hread
    unfold finish at hfinish
    rw [hstage] at hfinish
    simp only [hwhole, if_true] at hfinish
    rcases h.endNumeral n with ⟨hvalue, -⟩ | ⟨-, f, hstuck⟩
    · exact hvalue
    · rw [hstuck] at hfinish
      cases hfinish
  | cons b rest ih =>
    have hshort := h.short n hstage
    cases hn : n.step true b with
    | more n' =>
      have hstep := step_of_more hstage h.skim hn
      obtain ⟨hdigits', hnumbers'⟩ := numbersWithin_cons hnumbers hstep
      have hwithin : Within { r with stage := .numeral n' } (digits + (Numeral.isDigit b).toNat) :=
        h.mk_stage fun m hm => by
          obtain rfl := Stage.numeral.inj hm
          exact hshort.step hn
      have hread' : readFrom none { r with stage := .numeral n' } (b :: seen) rest = .ok d := by
        rcases readFrom_cons hread with ⟨r', hr', hread'⟩ | ⟨hw, -⟩ | ⟨hw, -⟩
        · rwa [Step.more.inj (hstep.symm.trans hr')]
        · cases hstep.symm.trans hw
        · cases hstep.symm.trans hw
      exact hshort.value_of_step hdigits hwhole hn fun hwhole' =>
        ih hwithin hdigits' rfl hwhole' hread' hnumbers'
    | stuck f =>
      unfold readFrom at hread
      rw [step_of_stuck hstage h.skim hn] at hread
      cases hread
    | ended =>
      rcases h.endNumeral n with ⟨hvalue, -⟩ | ⟨-, f, hstuck⟩
      · exact hvalue
      · unfold readFrom at hread
        rw [step_of_ended hstage h.skim hn hstuck] at hread
        cases hread

/-- Wherever a document is cut within a list or an object, its end is what is missing. -/
theorem Within.finish {seen rest : List UInt8} (h : r.Within digits)
    (hdigits : digits ≤ Numeral.digitLimit) (hread : readFrom none r seen rest = .ok d)
    (hnumbers : r.numbersWithin Numeral.digitLimit digits rest) :
    ∃ f, r.finish = .error f ∧ f.isEnd := by
  unfold Reading.finish
  cases hstage : r.stage with
  | numeral n =>
    dsimp only
    split
    case isTrue hwhole =>
      have hvalue := h.value_of_read hdigits hstage hwhole hread hnumbers
      rcases h.endNumeral n with ⟨-, r', hr', -, hafter⟩ | ⟨hnone, -⟩
      · rw [hr']
        rcases hafter with hafter | hafter
        · simp [hafter, Fault.isEnd]
        · simp [hafter, Fault.isEnd]
      · rw [hnone] at hvalue
        cases hvalue
    case isFalse => exact ⟨_, rfl, rfl⟩
  | _ => exact ⟨_, rfl, rfl⟩

end Reading

end ClusterAgent.Json
