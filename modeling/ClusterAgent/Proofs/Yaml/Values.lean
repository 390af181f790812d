/-
  ClusterAgent/Proofs/Yaml/Values.lean
  ====================================
  **What is read from a text is in order.**

  The reader puts every entry of a mapping under its key, so the values that it makes
  have their fields in order at every depth: `ordered_read`.
-/
import ClusterAgent.Proofs.Json.Ordered
import ClusterAgent.Yaml.Reader

namespace ClusterAgent.Yaml

open Json (Ordered Sorted)

variable {j : Json}

/-! ### Scalars -/

theorem isObject_toJson (f : Scalar.Float) : f.toJson.isObject = false := by
  cases f <;> rfl

theorem isObject_ofInteger {n : Int} (h : Scalar.ofInteger n = .ok j) : j.isObject = false := by
  unfold Scalar.ofInteger at h
  split at h
  · cases h
    rfl
  · cases h

theorem isObject_resolve {s : String} (h : Scalar.resolve s = .ok j) : j.isObject = false := by
  unfold Scalar.resolve at h
  split at h
  · cases h
    rfl
  · split at h
    · cases h
      rfl
    · split at h
      · exact isObject_ofInteger h
      · split at h
        · cases h
          rfl
        · split at h
          · cases h
            exact isObject_toJson _
          · cases h
            rfl

theorem isObject_resolveTagged {tag : List UInt8} {s : String}
    (h : Scalar.resolveTagged tag s = .ok j) : j.isObject = false := by
  unfold Scalar.resolveTagged at h
  split at h
  · split at h <;> cases h
    rfl
  · split at h
    · split at h
      · exact isObject_ofInteger h
      · cases h
    · split at h
      · split at h <;> cases h
        exact isObject_toJson _
      · split at h
        · split at h <;> cases h
          rfl
        · cases h
          rfl

theorem isObject_scalarValue {tag : Option (List UInt8)} {style : Style} {text : List Char}
    (h : Document.scalarValue tag style text = .ok j) : j.isObject = false := by
  have hplainly : ∀ {s : String}, (if style = .plain then Scalar.resolve s else .ok (.string s)) =
      Except.ok j → j.isObject = false := by
    intro s h
    split at h
    · exact isObject_resolve h
    · cases h
      rfl
  unfold Document.scalarValue at h
  dsimp only at h
  split at h
  · exact hplainly h
  · split at h
    · cases h
    · split at h
      · exact hplainly h
      · exact isObject_resolveTagged h

/-! ### Nodes -/

/-- A bind that came to a result had a result to go on with. -/
theorem ok_of_bind {α β ε : Type} {x : Except ε α} {f : α → Except ε β} {b : β}
    (h : (x >>= f) = .ok b) : ∃ a, x = .ok a ∧ f a = .ok b := by
  cases x with
  | error e => cases h
  | ok a => exact ⟨a, rfl, h⟩

/-- What every step of a fold keeps holds of its result. -/
theorem foldlM_ok {α β ε : Type} {P : β → Prop} {f : β → α → Except ε β} {items : List α}
    {start result : β} (hstart : P start)
    (hstep : ∀ b a b', P b → f b a = .ok b' → P b') (h : items.foldlM f start = .ok result) :
    P result := by
  induction items generalizing start with
  | nil =>
    cases h
    exact hstart
  | cons a rest ih =>
    rw [List.foldlM_cons] at h
    obtain ⟨next, hnext, hrest⟩ := ok_of_bind h
    exact ih (hstep start a next hstart hnext) hrest

/-- Puts the entry of a mapping under its key; so many collections may be opened in its value. -/
def Document.putEntry (d : Document) (depth : Nat) (before : List (String × Json) × Nat)
    (entry : Node × Node) : Except Fault (List (String × Json) × Nat) := do
  let (key, jumps) ← d.keyText before.2 entry.1
  let (v, jumps) ← d.value depth jumps entry.2
  pure (Json.insert key v before.1, jumps)

/-- A value without fields, or a mapping whose entries were put under their keys. -/
theorem value_cases {d : Document} {depth jumps jumps' : Nat} {node : Node}
    (h : d.value depth jumps node = .ok (j, jumps')) :
    j.isObject = false ∨ ∃ (below before : Nat) (entries : List (Node × Node))
      (fields : List (String × Json)), depth = below + 1 ∧ j = .object fields ∧
        entries.foldlM (d.putEntry below) ([], before) = .ok (fields, jumps') := by
  unfold Document.value at h
  obtain ⟨⟨inner, before⟩, -, h⟩ := ok_of_bind h
  cases inner with
  | scalar tag style text =>
    obtain ⟨v, hv, h⟩ := ok_of_bind h
    cases h
    exact .inl (isObject_scalarValue hv)
  | «alias» number => cases h
  | sequence tag items =>
    dsimp only at h
    split at h
    · cases h
    · split at h
      · cases h
      · obtain ⟨values, -, h⟩ := ok_of_bind h
        cases h
        exact .inl rfl
  | mapping tag entries =>
    dsimp only at h
    split at h
    · cases h
    · split at h
      · cases h
      · obtain ⟨⟨fields, after⟩, hfields, h⟩ := ok_of_bind h
        cases h
        exact .inr ⟨_, before, entries, fields, rfl, rfl, hfields⟩

theorem ordered_value {d : Document} {depth jumps jumps' : Nat} {node : Node}
    (h : d.value depth jumps node = .ok (j, jumps')) : j.Ordered := by
  induction depth generalizing jumps jumps' node j with
  | zero =>
    rcases value_cases h with hplain | ⟨_, _, _, _, hdepth, -⟩
    · exact Json.ordered_of_isObject hplain
    · cases hdepth
  | succ depth ih =>
    rcases value_cases h with hplain | ⟨below, before, entries, fields, hdepth, rfl, hfields⟩
    · exact Json.ordered_of_isObject hplain
    · cases hdepth
      have hkept : Sorted fields ∧ ∀ field ∈ fields, field.2.Ordered := by
        refine foldlM_ok (P := fun b => Sorted b.1 ∧ ∀ field ∈ b.1, field.2.Ordered)
          ⟨Json.sorted_nil, nofun⟩ ?_ hfields
        rintro ⟨before, jumps⟩ entry after ⟨hsorted, hvalues⟩ hentry
        obtain ⟨⟨key, jumps⟩, -, hentry⟩ := ok_of_bind hentry
        obtain ⟨⟨v, jumps⟩, hv, hentry⟩ := ok_of_bind hentry
        cases hentry
        refine ⟨Json.sorted_insert hsorted, ?_⟩
        intro field hfield
        rcases Json.mem_insert hfield with rfl | hfield
        · exact ih hv
        · exact hvalues field hfield
      exact Json.ordered_object hkept.1 hkept.2

/-- **What a text stands for is in order.** -/
theorem ordered_read {text : String} (h : read text = .ok j) : j.Ordered := by
  unfold read at h
  obtain ⟨tokens, -, h⟩ := ok_of_bind h
  obtain ⟨found, -, h⟩ := ok_of_bind h
  cases found with
  | none =>
    cases h
    exact Json.ordered_of_isObject rfl
  | some d =>
    obtain ⟨⟨v, jumps⟩, hv, h⟩ := ok_of_bind h
    cases h
    exact ordered_value hv

end ClusterAgent.Yaml
