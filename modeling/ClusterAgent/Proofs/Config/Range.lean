/-
  ClusterAgent/Proofs/Config/Range.lean
  =====================================
  **Which numbers a configuration can hold.**

  A section starts with its defaults, and each field that is read changes it; what the
  defaults have and every field keeps, every section that is read has
  (`readSection_keeps`).  So the numbers of a loaded configuration are words
  (`inRange_of_load`), and a file can give any such numbers (`ofEntries_entries`).
-/
import ClusterAgent.Config.Load

namespace ClusterAgent.Config

open Toml (Fault Entries)

/-! ### Reading a section -/

theorem bind_eq_ok {α β ε : Type} {x : Except ε α} {f : α → Except ε β} {b : β}
    (h : x.bind f = .ok b) : ∃ a, x = .ok a ∧ f a = .ok b := by
  cases x with
  | error => cases h
  | ok a => exact ⟨a, rfl, h⟩

section Sections

variable {ρ : Type} {P : ρ → Prop} {fields : List (Field ρ)}

/-- Reading a field keeps a property of the section. -/
def Field.Keeps (P : ρ → Prop) (f : Field ρ) : Prop :=
  ∀ v r r', P r → f.set v r = .ok r' → P r'

theorem readTable_keeps (hfields : ∀ f ∈ fields, f.Keeps P) {entries : Entries} {r r' : ρ} (hr : P r)
    (h : readTable fields r entries = .ok r') : P r' := by
  induction fields generalizing r with
  | nil =>
    obtain rfl := Except.ok.inj h
    exact hr
  | cons f fields ih =>
    obtain ⟨hf, hfields⟩ := List.forall_mem_cons.mp hfields
    rw [readTable, List.foldlM_cons] at h
    obtain ⟨next, hnext, h⟩ := bind_eq_ok h
    refine ih hfields ?_ h
    split at hnext
    case h_1 v _ => exact hf v r next hr hnext
    case h_2 => exact Except.ok.inj hnext ▸ hr

theorem readItems_keeps (hfields : ∀ f ∈ fields, f.Keeps P) {items : List Toml} {r r' : ρ} (hr : P r)
    (h : readItems fields r items = .ok r') : P r' := by
  induction fields generalizing r items with
  | nil =>
    obtain rfl := Except.ok.inj h
    exact hr
  | cons f fields ih =>
    obtain ⟨hf, hfields⟩ := List.forall_mem_cons.mp hfields
    cases items with
    | nil =>
      unfold readItems at h
      split at h
      · cases h
      · exact ih hfields hr h
    | cons v items =>
      unfold readItems at h
      obtain ⟨next, hset, h⟩ := bind_eq_ok h
      exact ih hfields (hf v r next hr hset) h

/-- What the defaults have and every field keeps, every section that is read has. -/
theorem readSection_keeps (hfields : ∀ f ∈ fields, f.Keeps P) {zero r : ρ} (hzero : P zero)
    {value : Option Toml} (h : readSection fields zero value = .ok r) : P r := by
  unfold readSection at h
  split at h
  · exact Except.ok.inj h ▸ hzero
  · exact readTable_keeps hfields hzero h
  · exact readItems_keeps hfields hzero h
  · exact readItems_keeps hfields hzero h
  · exact Except.ok.inj h ▸ hzero
  · cases h

theorem field_keeps {α : Type} {name : String} {decode : Toml → Except Fault α} {put : α → ρ → ρ}
    (hput : ∀ v a r, P r → decode v = .ok a → P (put a r)) : (field name decode put).Keeps P := by
  intro v r r' hr h
  change (decode v).map _ = _ at h
  cases hdecode : decode v with
  | error fault =>
    rw [hdecode] at h
    cases h
  | ok a =>
    rw [hdecode] at h
    exact Except.ok.inj h ▸ hput v a r hr hdecode

end Sections

/-! ### The numbers of the transport section -/

/-- Every number is one that a file can give. -/
structure Transport.InRange (t : Transport) : Prop where
  reconnect : t.reconnectSecs ≤ wordMax
  heartbeat : t.heartbeatSecs ≤ wordMax
  outbound : t.outboundQueue ≤ wordMax
  request : t.requestQueue ≤ wordMax

theorem le_of_asNat {greatest n : Nat} {v : Toml} (h : asNat greatest v = .ok n) : n ≤ greatest := by
  unfold asNat at h
  split at h
  · split at h
    case isTrue hbound => exact Except.ok.inj h ▸ hbound.2
    case isFalse => cases h
  · cases h

theorem asNat_integer {greatest n : Nat} (h : n ≤ greatest) :
    asNat greatest (.integer n) = .ok n := by
  simp [asNat, h]

theorem Transport.fields_keep : ∀ f ∈ Transport.fields, f.Keeps Transport.InRange := by
  intro f hf
  simp only [Transport.fields, List.mem_cons, List.not_mem_nil, or_false] at hf
  rcases hf with rfl | rfl | rfl | rfl
  · exact field_keeps fun v n t ht h => { ht with reconnect := le_of_asNat h }
  · exact field_keeps fun v n t ht h => { ht with heartbeat := le_of_asNat h }
  · exact field_keeps fun v n t ht h => { ht with outbound := le_of_asNat h }
  · exact field_keeps fun v n t ht h => { ht with request := le_of_asNat h }

theorem Transport.inRange_default : Transport.default.InRange := by
  constructor <;> decide

theorem inRange_of_ofEntries {entries : Entries} {c : Config} (h : ofEntries entries = .ok c) :
    c.transport.InRange := by
  obtain ⟨server, -, h⟩ := bind_eq_ok h
  obtain ⟨transport, htransport, h⟩ := bind_eq_ok h
  obtain ⟨kubernetes, -, h⟩ := bind_eq_ok h
  obtain ⟨sessions, -, h⟩ := bind_eq_ok h
  obtain ⟨logging, -, h⟩ := bind_eq_ok h
  obtain rfl := Except.ok.inj h
  exact readSection_keeps Transport.fields_keep Transport.inRange_default htransport

theorem inRange_of_load {read : String → Except Files.Fault (List UInt8)}
    {env : String → Option String} {path : Option String} {c : Config}
    (h : load read env path = .ok c) : c.transport.InRange := by
  have hfile : ∀ {name content loaded}, ofFile name content = .ok loaded →
      loaded.transport.InRange := by
    intro name content loaded hloaded
    unfold ofFile at hloaded
    split at hloaded
    · cases hloaded
    · split at hloaded
      · cases hloaded
      · split at hloaded
        case h_1 c hread =>
          obtain rfl := Except.ok.inj hloaded
          obtain ⟨entries, -, hentries⟩ := bind_eq_ok hread
          exact inRange_of_ofEntries hentries
        case h_2 => cases hloaded
  unfold load at h
  cases hnamed : ofNamed read path with
  | error fault =>
    rw [hnamed] at h
    cases h
  | ok loaded =>
    rw [hnamed] at h
    obtain rfl := Except.ok.inj h
    change loaded.transport.InRange
    unfold ofNamed at hnamed
    split at hnamed
    · exact hfile hnamed
    · split at hnamed
      · exact Except.ok.inj hnamed ▸ Transport.inRange_default
      · exact hfile hnamed

/-- The entries of a file that gives just the numbers of the transport section. -/
def Transport.entries (t : Transport) : Entries :=
  [("transport", .table .header [
    ("reconnect_interval_secs", .integer t.reconnectSecs),
    ("heartbeat_interval_secs", .integer t.heartbeatSecs),
    ("outbound_queue_size", .integer t.outboundQueue),
    ("request_queue_size", .integer t.requestQueue)])]

theorem ofEntries_entries {t : Transport} (h : t.InRange) :
    ofEntries t.entries = .ok { default with transport := t } := by
  have hread : readSection Transport.fields Transport.default
      (Toml.find? "transport" t.entries) = .ok t := by
    simp [Transport.entries, Toml.find?, readSection, readTable, Transport.fields, field,
      asNat_integer h.reconnect, asNat_integer h.heartbeat, asNat_integer h.outbound,
      asNat_integer h.request, Except.map, bind, Except.bind, pure, Except.pure]
  have hnone : ∀ {ρ : Type} (fields : List (Field ρ)) (zero : ρ) (name : String),
      name ≠ "transport" → readSection fields zero (Toml.find? name t.entries) = .ok zero := by
    intro ρ fields zero name hname
    have hfind : Toml.find? name t.entries = none := by
      simp [Transport.entries, Toml.find?, hname.symm]
    rw [hfind]
    rfl
  unfold ofEntries
  simp only [hread, hnone _ _ "server" (by decide), hnone _ _ "kubernetes" (by decide),
    hnone _ _ "sessions" (by decide), hnone _ _ "logging" (by decide)]
  rfl

end ClusterAgent.Config
