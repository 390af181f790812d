/-
  ClusterAgent/Proofs/Json/Paths.lean
  ===================================
  **Storing at one path and reading at another.**

  `Json.putAt` writes one place of a value.  What stands at the end of the path is
  then the new value, provided that every step on the way has room for a key
  (`Json.takes`), and what stands at the end of a path that leads elsewhere
  (`Json.Apart`) is what stood there before.
-/
import ClusterAgent.Json.Basic
import Mathlib.Data.List.Infix

namespace ClusterAgent.Json

def Apart (p q : List String) : Prop :=
  ¬ p <+: q ∧ ¬ q <+: p

instance (p q : List String) : Decidable (Apart p q) :=
  inferInstanceAs (Decidable (_ ∧ _))

/-- Whether `putAt` reaches the end of the path: nothing on the way but objects, nulls and missing
    steps. -/
def takes : Json → List String → Bool
  | _, [] => true
  | .object fields, key :: rest => ((find? key fields).getD .null).takes rest
  | .null, _ :: _ => true
  | _, _ :: _ => false

/-! ### Paths -/

theorem Apart.symm {p q : List String} (h : Apart p q) : Apart q p :=
  ⟨h.2, h.1⟩

theorem apart_cons_self {key : String} {p q : List String} :
    Apart (key :: p) (key :: q) ↔ Apart p q := by
  simp [Apart, List.cons_prefix_cons]

theorem not_apart_nil {p : List String} : ¬ Apart p [] := by
  intro h
  exact h.2 List.nil_prefix

/-! ### Null -/

@[simp] theorem takes_null (path : List String) : Json.null.takes path = true := by
  cases path <;> rfl

theorem at?_null {path : List String} (h : path ≠ []) : Json.null.at? path = none := by
  cases path with
  | nil => exact absurd rfl h
  | cons key rest => rfl

/-! ### The place itself -/

theorem at?_putAt_self {j : Json} {path : List String} (h : j.takes path = true) (value : Json) :
    (j.putAt path value).at? path = some value := by
  induction path generalizing j with
  | nil => simp [putAt, at?]
  | cons key rest ih =>
    cases j with
    | object fields =>
      have hrest : ((find? key fields).getD .null).takes rest = true := by
        simpa [takes] using h
      simp [putAt, at?, field?, ih hrest]
    | null =>
      have hrest : (Json.null.putAt rest value).at? rest = some value := ih (takes_null rest)
      simp [putAt, at?, field?, find?, hrest]
    | bool _ | number _ | string _ | array _ => simp [takes] at h

theorem takes_of_at?_eq_some {j value : Json} {path : List String} (h : j.at? path = some value) :
    j.takes path = true := by
  induction path generalizing j with
  | nil => cases j <;> rfl
  | cons key rest ih =>
    cases j with
    | object fields =>
      simp only [at?, field?, Option.bind_eq_some_iff] at h
      obtain ⟨next, hnext, hvalue⟩ := h
      simp only [takes, hnext, Option.getD_some]
      exact ih hvalue
    | null | bool _ | number _ | string _ | array _ => simp [at?, field?] at h

/-! ### Places elsewhere -/

theorem at?_putAt_of_apart {p q : List String} (h : Apart p q) (j value : Json) :
    (j.putAt p value).at? q = j.at? q := by
  induction p generalizing j q with
  | nil => exact absurd h.symm not_apart_nil
  | cons key rest ih =>
    cases q with
    | nil => exact absurd h not_apart_nil
    | cons other more =>
      by_cases hkey : other = key
      · subst hkey
        have hrest : Apart rest more := apart_cons_self.mp h
        have hmore : more ≠ [] := by
          intro hnil
          exact not_apart_nil (hnil ▸ hrest)
        cases j with
        | object fields =>
          cases hfind : find? other fields with
          | none => simp [putAt, at?, field?, hfind, ih hrest, at?_null hmore]
          | some next => simp [putAt, at?, field?, hfind, ih hrest]
        | null => simp [putAt, at?, field?, find?, ih hrest, at?_null hmore]
        | bool _ | number _ | string _ | array _ => rfl
      · cases j with
        | object fields => simp [putAt, at?, field?, find?_insert_of_ne hkey]
        | null => simp [putAt, at?, field?, find?, Ne.symm hkey]
        | bool _ | number _ | string _ | array _ => rfl

theorem takes_putAt_of_apart {p q : List String} (h : Apart p q) (j value : Json) :
    (j.putAt p value).takes q = j.takes q := by
  induction p generalizing j q with
  | nil => exact absurd h.symm not_apart_nil
  | cons key rest ih =>
    cases q with
    | nil => exact absurd h not_apart_nil
    | cons other more =>
      by_cases hkey : other = key
      · subst hkey
        have hrest : Apart rest more := apart_cons_self.mp h
        cases j with
        | object fields => simp [putAt, takes, ih hrest]
        | null => simp [putAt, takes, find?, ih hrest]
        | bool _ | number _ | string _ | array _ => rfl
      · cases j with
        | object fields => simp [putAt, takes, find?_insert_of_ne hkey]
        | null => simp [putAt, takes, find?, Ne.symm hkey]
        | bool _ | number _ | string _ | array _ => rfl

theorem textAt_putAt_of_apart {p q : List String} (h : Apart p q) (j value : Json) :
    (j.putAt p value).textAt q = j.textAt q := by
  unfold textAt
  rw [at?_putAt_of_apart h]

theorem textAt_putAt_self {j : Json} {path : List String} (h : j.takes path = true)
    (text : String) : (j.putAt path (.string text)).textAt path = text := by
  simp [textAt, at?_putAt_self h, text?]

theorem takes_of_textAt_ne_blank {j : Json} {path : List String} (h : j.textAt path ≠ "") :
    j.takes path = true := by
  cases hat : j.at? path with
  | none => simp [textAt, hat] at h
  | some value => exact takes_of_at?_eq_some hat

theorem isObject_of_textAt_ne_blank {j : Json} {key : String} {path : List String}
    (h : j.textAt (key :: path) ≠ "") : j.isObject = true := by
  cases j with
  | object fields => rfl
  | null | bool _ | number _ | string _ | array _ => exact absurd rfl h

end ClusterAgent.Json
