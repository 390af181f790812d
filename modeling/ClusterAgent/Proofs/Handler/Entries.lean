/-
  ClusterAgent/Proofs/Handler/Entries.lean
  ========================================
  **Every kind has its own handlers.**

  The registry is filled kind by kind, and then with the sessions of pods.  No entry is
  made over another one, since the kinds differ in their resources and the actions in
  their names: `lookup_all`.
-/
import ClusterAgent.Handler.All
import ClusterAgent.Proofs.Registration
import Mathlib.Data.List.Induction
import Mathlib.Data.List.Nodup

namespace ClusterAgent.Handler

theorem action_name_injective {a b : Action} (h : a.name = b.name) : a = b := by
  cases a <;> cases b <;> first | rfl | simp [Action.name] at h

theorem lookup_registerKind_of_ne {kind : Kind} {resource : String} (h : kind.resource ≠ resource)
    (r : Registry Handler) (action : String) :
    (registerKind r kind).lookup resource action = r.lookup resource action := by
  unfold registerKind
  induction kind.actions generalizing r with
  | nil => rfl
  | cons a rest ih =>
    rw [List.foldl_cons, ih]
    split
    · rw [Registry.lookup_register, if_neg]
      simp [h]
    · rfl

theorem lookup_registerKind_self {kind : Kind} {a : Action} {handler : Handler}
    (ha : a ∈ kind.actions) (hown : ofAction? kind a = some handler) (r : Registry Handler) :
    (registerKind r kind).lookup kind.resource a.name = some handler := by
  unfold registerKind
  generalize kind.actions = actions at ha
  induction actions using List.reverseRecOn with
  | nil => cases ha
  | append_singleton before b ih =>
    rw [List.foldl_append]
    by_cases hb : b = a
    · subst hb
      simp [hown, Registry.lookup_register]
    · have hbefore : a ∈ before := by simpa [Ne.symm hb] using ha
      have hname : b.name ≠ a.name := fun h => hb (action_name_injective h)
      rw [List.foldl_cons, List.foldl_nil]
      split
      · rw [Registry.lookup_register, if_neg (by simp [hname]), ih hbefore]
      · exact ih hbefore

theorem lookup_foldl_of_not_mem {kinds : List Kind} {resource : String}
    (h : ∀ kind ∈ kinds, kind.resource ≠ resource) (r : Registry Handler) (action : String) :
    (kinds.foldl registerKind r).lookup resource action = r.lookup resource action := by
  induction kinds generalizing r with
  | nil => rfl
  | cons kind rest ih =>
    rw [List.foldl_cons, ih fun k hk => h k (List.mem_cons_of_mem _ hk)]
    exact lookup_registerKind_of_ne (h kind List.mem_cons_self) r action

theorem lookup_foldl_of_mem {kinds : List Kind} (hdistinct : (kinds.map Kind.resource).Nodup)
    {kind : Kind} (hkind : kind ∈ kinds) {a : Action} {handler : Handler}
    (ha : a ∈ kind.actions) (hown : ofAction? kind a = some handler) (r : Registry Handler) :
    (kinds.foldl registerKind r).lookup kind.resource a.name = some handler := by
  induction kinds generalizing r with
  | nil => cases hkind
  | cons first rest ih =>
    obtain ⟨hfirst, hrest⟩ := List.nodup_cons.mp hdistinct
    rcases List.mem_cons.mp hkind with rfl | hkind
    · rw [List.foldl_cons, lookup_foldl_of_not_mem]
      · exact lookup_registerKind_self ha hown r
      · intro k hk heq
        exact hfirst (List.mem_map.mpr ⟨k, hk, heq⟩)
    · exact ih hrest hkind _

/-- **Every kind gets its own handlers**: no kind is registered over another one, and neither are
    the pod sessions. -/
theorem lookup_all {kind : Kind} (hkind : kind ∈ Kind.all) {a : Action} {handler : Handler}
    (ha : a ∈ kind.actions) (hown : ofAction? kind a = some handler) :
    all.lookup kind.resource a.name = some handler := by
  have hdistinct : (Kind.all.map Kind.resource).Nodup := by decide
  have hsession : ∀ session ∈ [Action.exec, .stdin, .openLog, .closeLog],
      session.name ≠ a.name := by
    intro session hsession hname
    obtain rfl := action_name_injective hname
    cases session <;> simp [ofAction?] at hown hsession
  unfold all
  simp only [Registry.lookup_register]
  rw [if_neg, if_neg, if_neg, if_neg]
  · exact lookup_foldl_of_mem hdistinct hkind ha hown _
  all_goals
    intro hpair
    exact hsession _ (by simp) (Prod.mk.inj hpair).2

end ClusterAgent.Handler
