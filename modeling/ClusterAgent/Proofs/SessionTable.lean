/-
  ClusterAgent/Proofs/SessionTable.lean
  =====================================
  **The entries of a session table are the guards that are alive.**

  A table is shared by everybody who uses it, so what its users do comes to one list of
  uses: identifiers are registered and looked up, and guards are given up in any order,
  while others are issued for the same identifiers.  The books say of each guard that
  was ever issued whether it is still alive.  One invariant (`Kept`) ties the entries to
  them, in order and with their tokens; everything that the users can observe follows
  from it (`entries_are_live_guards`).

  A token is drawn for each registration, so n registrations need the tokens up to n, and fewer
  than 2^64 of them fit in a machine word.
-/
import ClusterAgent.SessionTable
import Mathlib.Data.List.Nodup
import Mathlib.Data.List.Range

namespace ClusterAgent.SessionTable

variable {α : Type u}

/-! ### The books -/

/-- A guard that was issued, and for which value. -/
structure Issued (α : Type u) where
  guard : Guard
  value : α
  isAlive : Bool

def Issued.slot (i : Issued α) : String × Nat × α := (i.guard.id, i.guard.token, i.value)

def Issued.kill (i : Issued α) : Issued α := { i with isAlive := false }

/-- A table and all guards that it has issued, in order. -/
structure Books (α : Type u) where
  table : SessionTable α
  issued : List (Issued α)

/-- What a table is used for. -/
inductive Use (α : Type u) where
  | register (id : String) (value : α)
  | get (id : String)
  | contains (id : String)
  | size
  /-- The guard that was issued after `n` others is given up; once it is dead, nobody has it. -/
  | drop (n : Nat)

namespace Books

def fresh : Books α := ⟨empty, []⟩

/-- The guards that are alive. -/
def live (b : Books α) : List (Issued α) := b.issued.filter (·.isAlive)

def use (b : Books α) : Use α → Books α
  | .register id value =>
    match b.table.register id value with
    | .error _ => b
    | .ok (guard, table) => ⟨table, b.issued ++ [⟨guard, value, true⟩]⟩
  | .get _ | .contains _ | .size => b
  | .drop n =>
    match b.issued[n]? with
    | some i => if i.isAlive then ⟨b.table.release i.guard, b.issued.modify n Issued.kill⟩ else b
    | none => b

def run (uses : List (Use α)) : Books α := uses.foldl use fresh

theorem mem_live {b : Books α} {i : Issued α} :
    i ∈ b.live ↔ i ∈ b.issued ∧ i.isAlive = true :=
  List.mem_filter

end Books

/-! ### Giving up one of several guards -/

theorem live_kill {issued : List (Issued α)} {n : Nat} {i : Issued α}
    (hn : issued[n]? = some i) (hdistinct : (issued.map (·.guard.token)).Nodup) :
    (issued.modify n Issued.kill).filter (·.isAlive) =
      (issued.filter (·.isAlive)).filter (·.guard.token ≠ i.guard.token) := by
  induction issued generalizing n with
  | nil => cases hn
  | cons head rest ih =>
    rw [List.map_cons, List.nodup_cons] at hdistinct
    obtain ⟨hhead, hrest⟩ := hdistinct
    cases n with
    | zero =>
      obtain rfl := Option.some.inj hn
      have hothers : (rest.filter (·.isAlive)).filter (·.guard.token ≠ head.guard.token) =
          rest.filter (·.isAlive) := by
        rw [List.filter_eq_self]
        intro j hj
        have hne : j.guard.token ≠ head.guard.token := fun heq =>
          hhead (heq ▸ List.mem_map_of_mem (List.mem_of_mem_filter hj))
        exact decide_eq_true hne
      rw [List.modify_zero_cons, List.filter_cons_of_neg (by simp [Issued.kill])]
      by_cases halive : head.isAlive = true
      · rw [List.filter_cons_of_pos halive, List.filter_cons_of_neg (by simp), hothers]
      · rw [List.filter_cons_of_neg halive, hothers]
    | succ n =>
      have hne : head.guard.token ≠ i.guard.token := fun heq =>
        hhead (heq ▸ List.mem_map_of_mem (List.mem_of_getElem? hn))
      rw [List.modify_succ_cons]
      by_cases halive : head.isAlive = true
      · rw [List.filter_cons_of_pos halive, List.filter_cons_of_pos halive,
          List.filter_cons_of_pos (by simpa using hne), ih hn hrest]
      · rw [List.filter_cons_of_neg halive, List.filter_cons_of_neg halive, ih hn hrest]

/-! ### The invariant -/

/-- The entries are those of the guards that are alive, and tokens are drawn in order. -/
structure Kept (b : Books α) : Prop where
  slots : b.table.slots = b.live.map Issued.slot
  next : b.table.next = b.issued.length + 1
  tokens : b.issued.map (·.guard.token) = List.range' 1 b.issued.length
  single : (b.live.map (·.guard.id)).Nodup

namespace Kept

variable {b : Books α}

theorem tokens_nodup (h : Kept b) : (b.issued.map (·.guard.token)).Nodup := by
  rw [h.tokens]
  exact List.nodup_range'

theorem token_bounds (h : Kept b) {i : Issued α} (hi : i ∈ b.issued) :
    0 < i.guard.token ∧ i.guard.token ≤ b.issued.length := by
  have hmem : i.guard.token ∈ List.range' 1 b.issued.length :=
    h.tokens ▸ List.mem_map_of_mem hi
  rw [List.mem_range'_1] at hmem
  omega

theorem find?_slots (h : Kept b) (id : String) :
    b.table.slots.find? (·.1 = id) = (b.live.find? (·.guard.id = id)).map Issued.slot := by
  rw [h.slots, List.find?_map]
  rfl

theorem contains_iff (h : Kept b) (id : String) :
    b.table.contains id = true ↔ ∃ i ∈ b.live, i.guard.id = id := by
  simp [SessionTable.contains, h.find?_slots]

theorem get?_iff (h : Kept b) (id : String) (value : α) :
    b.table.get? id = some value ↔ ∃ i ∈ b.live, i.guard.id = id ∧ i.value = value := by
  have hget : b.table.get? id = (b.live.find? (·.guard.id = id)).map (·.value) := by
    simp only [SessionTable.get?, h.find?_slots, Option.map_map]
    rfl
  rw [hget, Option.map_eq_some_iff]
  constructor
  · rintro ⟨i, hfound, hvalue⟩
    exact ⟨i, List.mem_of_find?_eq_some hfound, by simpa using List.find?_some hfound, hvalue⟩
  · rintro ⟨i, hi, hid, hvalue⟩
    cases hfound : b.live.find? (·.guard.id = id) with
    | none => exact absurd hid (by simpa using List.find?_eq_none.mp hfound i hi)
    | some j =>
      -- identifiers are used once, so the guard that is found is the one that is meant
      have hj : j = i := List.inj_on_of_nodup_map h.single (List.mem_of_find?_eq_some hfound) hi
        ((by simpa using List.find?_some hfound : j.guard.id = id).trans hid.symm)
      exact ⟨j, rfl, hj ▸ hvalue⟩

theorem get?_eq_none_iff (h : Kept b) (id : String) :
    b.table.get? id = none ↔ ∀ i ∈ b.live, i.guard.id ≠ id := by
  simp [SessionTable.get?, h.find?_slots]

theorem register_of_taken (h : Kept b) {id : String} (value : α)
    (htaken : ∃ i ∈ b.live, i.guard.id = id) : b.table.register id value = .error ⟨id⟩ :=
  if_pos ((h.contains_iff id).mpr htaken)

theorem register_of_free (h : Kept b) {id : String} (value : α)
    (hfree : ¬ ∃ i ∈ b.live, i.guard.id = id) :
    b.table.register id value =
      .ok (⟨id, b.table.next⟩, ⟨b.table.slots ++ [(id, b.table.next, value)],
        b.table.next + 1⟩) :=
  if_neg (mt (h.contains_iff id).mp hfree)

/-- Two guards with one token are the same guard. -/
theorem eq_of_token (h : Kept b) {i j : Issued α} (hi : i ∈ b.issued) (hj : j ∈ b.issued)
    (htoken : i.guard.token = j.guard.token) : i = j :=
  List.inj_on_of_nodup_map h.tokens_nodup hi hj htoken

theorem slots_release (h : Kept b) {i : Issued α} (hi : i ∈ b.issued) :
    (b.table.release i.guard).slots =
      (b.live.filter (·.guard.token ≠ i.guard.token)).map Issued.slot := by
  simp only [SessionTable.release, h.slots, List.filter_map]
  congr 1
  apply List.filter_congr
  intro j hj
  by_cases htoken : j.guard.token = i.guard.token
  · have := h.eq_of_token (Books.mem_live.mp hj).1 hi htoken
    simp [Issued.slot, this]
  · simp [Issued.slot, htoken]

theorem fresh : Kept (Books.fresh : Books α) where
  slots := rfl
  next := rfl
  tokens := rfl
  single := List.nodup_nil

theorem register (h : Kept b) (id : String) (value : α) : Kept (b.use (.register id value)) := by
  by_cases htaken : ∃ i ∈ b.live, i.guard.id = id
  · rw [show b.use (.register id value) = b by
      simp only [Books.use, h.register_of_taken value htaken]]
    exact h
  · simp only [Books.use, h.register_of_free value htaken]
    constructor
    · simp [Books.live, h.slots, Issued.slot]
    · simp [h.next]
    · rw [List.map_append, h.tokens, List.length_append, List.length_singleton,
        List.range'_1_concat, ← h.next.trans (Nat.add_comm _ 1)]
      rfl
    · simp only [Books.live, List.filter_append, List.filter_cons_of_pos, List.filter_nil,
        List.map_append, List.map_cons, List.map_nil]
      rw [List.nodup_append]
      refine ⟨h.single, List.nodup_singleton _, ?_⟩
      intro other hother id' hid' heq
      obtain ⟨i, hi, hid⟩ := List.mem_map.mp hother
      exact htaken ⟨i, hi, hid.trans (heq.trans (List.mem_singleton.mp hid'))⟩

theorem live_drop (h : Kept b) {n : Nat} {i : Issued α} (hn : b.issued[n]? = some i)
    (halive : i.isAlive = true) :
    (b.use (.drop n)).live = b.live.filter (·.guard.token ≠ i.guard.token) := by
  simp only [Books.use, hn, halive, if_true]
  exact live_kill hn h.tokens_nodup

theorem drop (h : Kept b) (n : Nat) : Kept (b.use (.drop n)) := by
  cases hn : b.issued[n]? with
  | none =>
    rw [show b.use (.drop n) = b by simp only [Books.use, hn]]
    exact h
  | some i =>
    by_cases halive : i.isAlive = true
    · have hlive := h.live_drop hn halive
      have huse : b.use (.drop n) =
          ⟨b.table.release i.guard, b.issued.modify n Issued.kill⟩ := by
        simp only [Books.use, hn, halive, if_true]
      constructor
      · rw [hlive, huse]
        exact h.slots_release (List.mem_of_getElem? hn)
      · rw [huse]
        simp [SessionTable.release, h.next]
      · rw [huse, List.length_modify, ← h.tokens]
        apply List.ext_getElem (by simp)
        intro k hk _
        by_cases hkn : n = k <;> simp [hkn, Issued.kill]
      · rw [hlive]
        exact (List.filter_sublist.map _).nodup h.single
    · rw [show b.use (.drop n) = b by simp [Books.use, hn, halive]]
      exact h

/-- Every use keeps the books. -/
theorem use (h : Kept b) (u : Use α) : Kept (b.use u) := by
  cases u with
  | register id value => exact h.register id value
  | get id => exact h
  | contains id => exact h
  | size => exact h
  | drop n => exact h.drop n

end Kept

theorem kept_run (uses : List (Use α)) : Kept (Books.run uses) := by
  suffices hfold : ∀ b : Books α, Kept b → Kept (uses.foldl Books.use b) from hfold _ Kept.fresh
  induction uses with
  | nil => exact fun b h => h
  | cons u rest ih => exact fun b h => ih _ (h.use u)

/-! ### What users observe -/

/-- What the books say of a table, and what the next use comes to. -/
structure Represents (b : Books α) : Prop where
  get?_iff : ∀ id value, b.table.get? id = some value ↔
    ∃ i ∈ b.live, i.guard.id = id ∧ i.value = value
  contains_iff : ∀ id, b.table.contains id = true ↔ ∃ i ∈ b.live, i.guard.id = id
  size_eq : b.table.size = b.live.length
  /-- For one identifier at most one guard is alive. -/
  single : (b.live.map (·.guard.id)).Nodup
  /-- No two of all the guards that were ever issued share a token. -/
  tokens_nodup : (b.issued.map (·.guard.token)).Nodup
  tokens_fit : b.issued.length < UInt64.size →
    ∀ i ∈ b.issued, 0 < i.guard.token ∧ i.guard.token < UInt64.size
  /-- Registering fails just where the identifier has a guard, and then nothing changes. -/
  refused_iff : ∀ id value, (∃ e, b.table.register id value = .error e) ↔
    ∃ i ∈ b.live, i.guard.id = id
  refused : ∀ id value e, b.table.register id value = .error e →
    e = ⟨id⟩ ∧ b.use (.register id value) = b
  /-- A registration issues one guard, with a token that no guard has had; the identifier has the
      value from then on, and nothing else changes. -/
  registered : ∀ id value guard table, b.table.register id value = .ok (guard, table) →
    guard.id = id ∧ (∀ i ∈ b.issued, i.guard.token ≠ guard.token) ∧
      b.use (.register id value) = ⟨table, b.issued ++ [⟨guard, value, true⟩]⟩ ∧
      ∀ other, table.get? other = if other = id then some value else b.table.get? other
  /-- A guard that is given up takes its own entry along and no other. -/
  dropped : ∀ n i, b.issued[n]? = some i → i.isAlive = true →
    (b.use (.drop n)).live = b.live.filter (·.guard.token ≠ i.guard.token) ∧
      ∀ other, (b.use (.drop n)).table.get? other =
        if other = i.guard.id then none else b.table.get? other
  /-- A dead guard has no entry to take along, whoever has its identifier now. -/
  stale : ∀ i ∈ b.issued, i.isAlive = false → b.table.release i.guard = b.table

namespace Kept

variable {b : Books α}

/-- What is found under an identifier depends on the guards that are alive for it. -/
theorem get?_congr {b' : Books α} (h : Kept b) (h' : Kept b') {id : String}
    (hlive : ∀ i, i.guard.id = id → (i ∈ b'.live ↔ i ∈ b.live)) :
    b'.table.get? id = b.table.get? id := by
  apply Option.ext
  intro value
  rw [h.get?_iff, h'.get?_iff]
  constructor
  · rintro ⟨i, hi, hid, hvalue⟩
    exact ⟨i, (hlive i hid).mp hi, hid, hvalue⟩
  · rintro ⟨i, hi, hid, hvalue⟩
    exact ⟨i, (hlive i hid).mpr hi, hid, hvalue⟩

theorem registered (h : Kept b) {id : String} {value : α} {guard : Guard}
    {table : SessionTable α} (hok : b.table.register id value = .ok (guard, table)) :
    guard.id = id ∧ (∀ i ∈ b.issued, i.guard.token ≠ guard.token) ∧
      b.use (.register id value) = ⟨table, b.issued ++ [⟨guard, value, true⟩]⟩ ∧
      ∀ other, table.get? other = if other = id then some value else b.table.get? other := by
  by_cases htaken : ∃ i ∈ b.live, i.guard.id = id
  · rw [h.register_of_taken value htaken] at hok
    cases hok
  · have huse : b.use (.register id value) = ⟨table, b.issued ++ [⟨guard, value, true⟩]⟩ := by
      simp only [Books.use, hok]
    have h' := h.register id value
    rw [huse] at h'
    rw [h.register_of_free value htaken] at hok
    cases hok
    have hlive : (b.use (.register id value)).live =
        b.live ++ [⟨⟨id, b.table.next⟩, value, true⟩] := by
      simp [huse, Books.live]
    rw [huse] at hlive
    refine ⟨rfl, ?_, huse, ?_⟩
    · intro i hi htoken
      have hbound := (h.token_bounds hi).2
      rw [htoken] at hbound
      exact Nat.not_succ_le_self _ (h.next ▸ hbound)
    · intro other
      by_cases hother : other = id
      · rw [if_pos hother, h'.get?_iff, hlive]
        exact ⟨_, List.mem_append_right _ (List.mem_singleton_self _), hother.symm, rfl⟩
      · rw [if_neg hother]
        apply h.get?_congr h'
        intro i hid
        rw [hlive, List.mem_append, List.mem_singleton]
        refine or_iff_left ?_
        rintro rfl
        exact hother hid.symm

theorem dropped (h : Kept b) {n : Nat} {i : Issued α} (hn : b.issued[n]? = some i)
    (halive : i.isAlive = true) (other : String) :
    (b.use (.drop n)).table.get? other =
      if other = i.guard.id then none else b.table.get? other := by
  have h' := h.drop n
  have hlive := h.live_drop hn halive
  have hi : i ∈ b.live := Books.mem_live.mpr ⟨List.mem_of_getElem? hn, halive⟩
  by_cases hother : other = i.guard.id
  · rw [if_pos hother, h'.get?_eq_none_iff, hlive]
    intro j hj hid
    obtain ⟨hj, htoken⟩ := List.mem_filter.mp hj
    have hsame : j = i := List.inj_on_of_nodup_map h.single hj hi (hid.trans hother)
    simp [hsame] at htoken
  · rw [if_neg hother]
    apply h.get?_congr h'
    intro j hid
    rw [hlive, List.mem_filter]
    refine and_iff_left_of_imp ?_
    intro hj
    have hne : j.guard.token ≠ i.guard.token := fun htoken =>
      hother (hid.symm.trans (by rw [h.eq_of_token (Books.mem_live.mp hj).1
        (List.mem_of_getElem? hn) htoken]))
    exact decide_eq_true hne

theorem stale (h : Kept b) {i : Issued α} (hi : i ∈ b.issued) (hdead : i.isAlive = false) :
    b.table.release i.guard = b.table := by
  have hslots : (b.table.release i.guard).slots = b.table.slots := by
    rw [h.slots_release hi, h.slots]
    congr 1
    rw [List.filter_eq_self]
    intro j hj
    have hne : j.guard.token ≠ i.guard.token := by
      intro htoken
      obtain ⟨hissued, halive⟩ := Books.mem_live.mp hj
      rw [h.eq_of_token hissued hi htoken, hdead] at halive
      cases halive
    exact decide_eq_true hne
  show { b.table with slots := (b.table.release i.guard).slots } = b.table
  rw [hslots]

end Kept

/-- **The entries are the live guards.**  After any list of registrations, lookups and dropped
    guards, by however many users of one table. -/
theorem entries_are_live_guards (uses : List (Use α)) : Represents (Books.run uses) := by
  have h := kept_run uses
  constructor
  case get?_iff => exact h.get?_iff
  case contains_iff => exact h.contains_iff
  case size_eq => rw [SessionTable.size, h.slots, List.length_map]
  case single => exact h.single
  case tokens_nodup => exact h.tokens_nodup
  case tokens_fit =>
    intro hfew i hi
    have hbounds := h.token_bounds hi
    exact ⟨hbounds.1, lt_of_le_of_lt hbounds.2 hfew⟩
  case refused_iff =>
    intro id value
    constructor
    · rintro ⟨e, herror⟩
      by_contra hfree
      rw [h.register_of_free value hfree] at herror
      cases herror
    · intro htaken
      exact ⟨_, h.register_of_taken value htaken⟩
  case refused =>
    intro id value e herror
    refine ⟨?_, by simp only [Books.use, herror]⟩
    by_cases htaken : ∃ i ∈ (Books.run uses).live, i.guard.id = id
    · rw [h.register_of_taken value htaken] at herror
      exact (Except.error.inj herror).symm
    · rw [h.register_of_free value htaken] at herror
      cases herror
  case registered =>
    intro id value guard table hok
    exact h.registered hok
  case dropped =>
    intro n i hn halive
    exact ⟨h.live_drop hn halive, h.dropped hn halive⟩
  case stale =>
    intro i hi hdead
    exact h.stale hi hdead

/-- An identifier is registered, given up and registered anew; the guard of the first registration
    is dead by then, and giving it up once more leaves the second entry where it is. -/
example :
    let b : Books Nat := Books.run [.register "s" 1, .drop 0, .register "s" 2, .drop 0]
    b.table.get? "s" = some 2 ∧ b.live.length = 1 := by decide

end ClusterAgent.SessionTable
