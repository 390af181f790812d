/-
  ClusterAgent/Proofs/Json/Ordered.lean
  =====================================
  **Fields in the order of their keys.**

  `Json.insert` keeps fields in order, and among fields in order it finds the place of
  a key that is there already: putting back the value that stands under a key changes
  nothing.  `Json.Ordered` says that the fields of a value are in order, and of every
  value that a path leads to.
-/
import ClusterAgent.Json.Basic
import Mathlib.Data.String.Basic

namespace ClusterAgent.Json

variable {key : String} {value : Json} {fields : List (String × Json)}

/-- Each key comes before the next one. -/
def Sorted (fields : List (String × Json)) : Prop :=
  fields.Pairwise fun a b => a.1 < b.1

theorem sorted_nil : Sorted [] :=
  .nil

theorem mem_insert {field : String × Json} (h : field ∈ insert key value fields) :
    field = (key, value) ∨ field ∈ fields := by
  induction fields with
  | nil => exact .inl (List.mem_singleton.mp h)
  | cons first rest ih =>
    obtain ⟨k, v⟩ := first
    unfold insert at h
    split at h
    · rcases List.mem_cons.mp h with h | h
      · exact .inl h
      · exact .inr (List.mem_cons_of_mem _ h)
    · split at h
      · exact List.mem_cons.mp h
      · rcases List.mem_cons.mp h with h | h
        · exact .inr (h ▸ List.mem_cons_self)
        · exact (ih h).imp_right (List.mem_cons_of_mem _)

theorem mem_of_find? (h : find? key fields = some value) : (key, value) ∈ fields := by
  induction fields with
  | nil => cases h
  | cons first rest ih =>
    obtain ⟨k, v⟩ := first
    unfold find? at h
    split at h
    · rename_i hkey
      rw [← hkey, ← Option.some.inj h]
      exact List.mem_cons_self
    · exact List.mem_cons_of_mem _ (ih h)

theorem find?_of_mem (h : Sorted fields) (hmem : (key, value) ∈ fields) :
    find? key fields = some value := by
  induction fields with
  | nil => cases hmem
  | cons first rest ih =>
    obtain ⟨k, v⟩ := first
    obtain ⟨hfirst, hrest⟩ := List.pairwise_cons.mp h
    unfold find?
    rcases List.mem_cons.mp hmem with heq | hmem
    · obtain ⟨rfl, rfl⟩ := Prod.mk.inj heq
      exact if_pos rfl
    · have hless : k < key := hfirst _ hmem
      rw [if_neg hless.ne]
      exact ih hrest hmem

/-- Fields in order are determined by what stands under each key. -/
theorem eq_of_find? {a b : List (String × Json)} (ha : Sorted a) (hb : Sorted b)
    (h : ∀ key, find? key a = find? key b) : a = b := by
  have hnodup : ∀ {l : List (String × Json)}, Sorted l → l.Nodup := fun hl =>
    hl.imp fun hless heq => (heq ▸ hless).ne rfl
  have hperm : a.Perm b := by
    apply (List.perm_ext_iff_of_nodup (hnodup ha) (hnodup hb)).mpr
    rintro ⟨key, value⟩
    constructor
    · intro hmem
      exact mem_of_find? ((h key).symm.trans (find?_of_mem ha hmem))
    · intro hmem
      exact mem_of_find? ((h key).trans (find?_of_mem hb hmem))
  apply hperm.eq_of_pairwise _ ha hb
  intro first second _ _ hless hgreater
  exact absurd (hless.trans hgreater) (lt_irrefl _)

theorem sorted_insert (h : Sorted fields) : Sorted (insert key value fields) := by
  induction fields with
  | nil => exact List.pairwise_singleton _ _
  | cons first rest ih =>
    obtain ⟨k, v⟩ := first
    obtain ⟨hfirst, hrest⟩ := List.pairwise_cons.mp h
    unfold insert
    split
    · rename_i hkey
      exact List.pairwise_cons.mpr ⟨fun b hb => hkey ▸ hfirst b hb, hrest⟩
    · rename_i hkey
      split
      · rename_i hless
        refine List.pairwise_cons.mpr ⟨?_, h⟩
        intro b hb
        rcases List.mem_cons.mp hb with rfl | hb
        · exact hless
        · exact hless.trans (hfirst b hb)
      · rename_i hless
        refine List.pairwise_cons.mpr ⟨?_, ih hrest⟩
        intro b hb
        rcases mem_insert hb with rfl | hb
        · exact lt_of_le_of_ne (not_lt.mp hless) hkey
        · exact hfirst b hb

/-- Fields in order stay as they are when the value under a key is put there again. -/
theorem insert_of_find? (h : Sorted fields) (hfind : find? key fields = some value) :
    insert key value fields = fields := by
  induction fields with
  | nil => cases hfind
  | cons first rest ih =>
    obtain ⟨k, v⟩ := first
    obtain ⟨hfirst, hrest⟩ := List.pairwise_cons.mp h
    unfold find? at hfind
    unfold insert
    split at hfind
    · rename_i hkey
      obtain rfl := Option.some.inj hfind
      rw [if_pos hkey, hkey]
    · rename_i hkey
      have hless : k < key := hfirst _ (mem_of_find? hfind)
      rw [if_neg hkey, if_neg (not_lt.mpr hless.le), ih hrest hfind]

/-- A key greater than all others comes last. -/
theorem insert_of_forall_lt (h : ∀ field ∈ fields, field.1 < key) :
    insert key value fields = fields ++ [(key, value)] := by
  induction fields with
  | nil => rfl
  | cons field fields ih =>
    obtain ⟨hfirst, hrest⟩ := List.forall_mem_cons.mp h
    rw [insert, if_neg hfirst.ne, if_neg (not_lt.mpr hfirst.le), ih hrest, List.cons_append]

/-! ### Values in order -/

/-- The fields of the value are in order, and those of every value that a path leads to. -/
def Ordered (j : Json) : Prop :=
  ∀ path fields, j.at? path = some (.object fields) → Sorted fields

theorem Ordered.sorted (h : (Json.object fields).Ordered) : Sorted fields :=
  h [] fields rfl

theorem Ordered.of_find? (h : (Json.object fields).Ordered) (hfind : find? key fields = some value) :
    value.Ordered := by
  intro path inner hinner
  apply h (key :: path)
  simpa [at?, field?, hfind] using hinner

theorem ordered_object (h : Sorted fields) (hvalues : ∀ field ∈ fields, field.2.Ordered) :
    (Json.object fields).Ordered := by
  intro path inner hinner
  cases path with
  | nil =>
    cases hinner
    exact h
  | cons key rest =>
    simp only [at?, field?, Option.bind_eq_some_iff] at hinner
    obtain ⟨next, hnext, hinner⟩ := hinner
    exact hvalues _ (mem_of_find? hnext) rest inner hinner

/-- A value without fields has none that could be out of order. -/
theorem ordered_of_isObject (h : value.isObject = false) : value.Ordered := by
  intro path inner hinner
  cases path with
  | nil =>
    cases hinner
    cases h
  | cons key rest =>
    cases value with
    | object fields => cases h
    | null | bool _ | number _ | string _ | array _ => cases hinner

end ClusterAgent.Json
