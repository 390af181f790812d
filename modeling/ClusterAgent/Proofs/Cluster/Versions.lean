/-
  ClusterAgent/Proofs/Cluster/Versions.lean
  =========================================
  **A version tells what is stored.**

  Replacing an object raises its version, and an offer made with another version
  than the stored one is refused.  So the version is as good as the content: whoever
  has read an object and finds its version unchanged may take the content for
  unchanged too.  `Memory.Recalls` says this of one object that somebody has read,
  whatever was stored since; every operation on the cluster preserves it, except the
  deletion of that very object.
-/
import ClusterAgent.Cluster.Client
import ClusterAgent.Proofs.Json.Paths
import Mathlib.Tactic.ByCases

namespace ClusterAgent.Cluster

abbrev versionPath : List String := ["metadata", "resourceVersion"]

abbrev versionBound : Nat := Nat.pow 2 64

namespace Memory

/-! ### Version texts -/

theorem versionNumber_toString {n : Nat} (h : n < versionBound) :
    versionNumber (toString n) = n := by
  have hlist : (toString n).toList = Nat.toDigits 10 n := Nat.toList_repr
  have hne : Nat.toDigits 10 n ≠ [] := Nat.toDigits_ne_nil
  have hall : ∀ c ∈ Nat.toDigits 10 n, c.isDigit = true := fun c hc =>
    Nat.isDigit_of_mem_toDigits (by decide) (by decide) hc
  have hfold : (Nat.toDigits 10 n).foldl (fun acc c => acc * 10 + (c.toNat - 48)) 0 = n := by
    have h10 := @Nat.ofDigitChars_ten_toDigits n
    rw [Nat.ofDigitChars_eq_foldl] at h10
    simpa [Nat.mul_comm] using h10
  have hplus : ∀ rest, Nat.toDigits 10 n ≠ '+' :: rest := by
    intro rest heq
    have := hall '+' (heq ▸ List.mem_cons_self)
    exact absurd this (by decide)
  unfold versionNumber
  rw [hlist]
  split
  · rename_i rest heq
    exact absurd heq (hplus rest)
  · rw [if_pos ⟨hne, List.all_eq_true.mpr hall⟩, hfold]
    exact if_pos h

theorem toString_ne_blank (n : Nat) : toString n ≠ "" := by
  intro h
  have hlist : (toString n).toList = Nat.toDigits 10 n := Nat.toList_repr
  rw [h] at hlist
  exact Nat.toDigits_ne_nil hlist.symm

theorem toString_injective {a b : Nat} (h : toString a = toString b) : a = b := by
  have hdigits : Nat.toDigits 10 a = Nat.toDigits 10 b := by
    rw [← Nat.toList_repr, ← Nat.toList_repr]
    exact congrArg String.toList h
  calc
    a = Nat.ofDigitChars 10 (Nat.toDigits 10 a) 0 := Nat.ofDigitChars_ten_toDigits.symm
    _ = Nat.ofDigitChars 10 (Nat.toDigits 10 b) 0 := by rw [hdigits]
    _ = b := Nat.ofDigitChars_ten_toDigits

theorem version_nextVersion {object : Json} (h : object.takes versionPath = true) (n : Nat) :
    version (nextVersion n object) = toString (n + 1) :=
  Json.textAt_putAt_self h _

/-! ### Targets -/

def SameTarget (kind : Kind) (ns name : String) (kind' : Kind) (ns' name' : String) : Prop :=
  kind = kind' ∧ name = name' ∧ (kind.namespaced = true → ns = ns')

instance (kind : Kind) (ns name : String) (kind' : Kind) (ns' name' : String) :
    Decidable (SameTarget kind ns name kind' ns' name') :=
  inferInstanceAs (Decidable (_ ∧ _))

theorem plural_injective : ∀ kind ∈ Kind.all, ∀ kind' ∈ Kind.all,
    kind.plural = kind'.plural → kind = kind' := by
  decide +kernel

theorem holds_eq_of_sameTarget {kind kind' : Kind} {ns name ns' name' : String}
    (h : SameTarget kind ns name kind' ns' name') : holds kind ns name = holds kind' ns' name' := by
  obtain ⟨rfl, rfl, hns⟩ := h
  funext entry
  cases hkind : kind.namespaced with
  | false => simp [holds, isObject, hkind]
  | true => rw [hns hkind]

theorem find?_of_sameTarget {kind kind' : Kind} {ns name ns' name' : String}
    (h : SameTarget kind ns name kind' ns' name') (m : Memory) :
    m.find? kind ns name = m.find? kind' ns' name' := by
  unfold find?
  rw [holds_eq_of_sameTarget h]

/-- An object stands for the target that it was found under. -/
theorem sameTarget_of_isObject {kind : Kind} {ns name : String} {object : Json}
    (h : isObject kind ns name object = true) :
    SameTarget kind ns name kind (objectNamespace object) (objectName object) := by
  simp only [isObject, Bool.and_eq_true, beq_iff_eq, Bool.or_eq_true,
    Bool.not_eq_eq_eq_not, Bool.not_true] at h
  obtain ⟨hname, hns⟩ := h
  refine ⟨rfl, hname.symm, ?_⟩
  intro hspaced
  rcases hns with hfree | hns
  · rw [hspaced] at hfree
    exact absurd hfree (by decide)
  · exact hns.symm

theorem sameTarget_congr {kind kind' : Kind} {ns name ns₁ name₁ ns₂ name₂ : String}
    (h : SameTarget kind ns₁ name₁ kind ns₂ name₂) :
    SameTarget kind' ns name kind ns₁ name₁ ↔ SameTarget kind' ns name kind ns₂ name₂ := by
  obtain ⟨-, hname, hns⟩ := h
  constructor
  · rintro ⟨rfl, h, h'⟩
    exact ⟨rfl, h.trans hname, fun hspaced => (h' hspaced).trans (hns hspaced)⟩
  · rintro ⟨rfl, h, h'⟩
    exact ⟨rfl, h.trans hname.symm, fun hspaced => (h' hspaced).trans (hns hspaced).symm⟩

theorem sameTarget_of_holds {kind kind' : Kind} (hkind : kind ∈ Kind.all)
    (hkind' : kind' ∈ Kind.all) {ns name ns' name' : String} {entry : String × Json}
    (h : holds kind ns name entry = true) (h' : holds kind' ns' name' entry = true) :
    SameTarget kind ns name kind' ns' name' := by
  simp only [holds, isObject, Bool.and_eq_true, beq_iff_eq, Bool.or_eq_true,
    Bool.not_eq_eq_eq_not, Bool.not_true] at h h'
  obtain ⟨hplural, hname, hns⟩ := h
  obtain ⟨hplural', hname', hns'⟩ := h'
  have hsame : kind = kind' :=
    plural_injective kind hkind kind' hkind' (hplural.symm.trans hplural')
  subst hsame
  refine ⟨rfl, hname.symm.trans hname', ?_⟩
  intro hspaced
  rcases hns with hns | hns
  · rw [hspaced] at hns
    exact absurd hns (by decide)
  · rcases hns' with hns' | hns'
    · rw [hspaced] at hns'
      exact absurd hns' (by decide)
    · exact hns.symm.trans hns'

/-! ### Finding after storing -/

theorem find?_putFirst_self {p : String × Json → Bool} {object : Json}
    (hp : ∀ e, p e = true → p (e.1, object) = true) {entries : List (String × Json)}
    {e : String × Json} (h : entries.find? p = some e) :
    ((putFirst p object entries).find? p).map (·.2) = some object := by
  induction entries with
  | nil => simp at h
  | cons first rest ih =>
    unfold putFirst
    by_cases hfirst : p first = true
    · simp [hfirst, hp first hfirst]
    · simp only [hfirst, Bool.false_eq_true, if_false]
      rw [List.find?_cons_of_neg hfirst] at h ⊢
      exact ih h

theorem find?_putFirst_of_apart {p q : String × Json → Bool} {object : Json}
    (hp : ∀ e, p e = true → p (e.1, object) = true)
    (hpq : ∀ e, p e = true → q e = true → False) (entries : List (String × Json)) :
    (putFirst p object entries).find? q = entries.find? q := by
  induction entries with
  | nil => rfl
  | cons first rest ih =>
    unfold putFirst
    by_cases hfirst : p first = true
    · have hbefore : ¬ q first = true := hpq first hfirst
      have hafter : ¬ q (first.1, object) = true := hpq _ (hp first hfirst)
      simp only [hfirst, if_true]
      rw [List.find?_cons_of_neg hbefore, List.find?_cons_of_neg hafter]
    · simp only [hfirst, Bool.false_eq_true, if_false]
      rw [List.find?_cons, List.find?_cons, ih]

theorem mem_putFirst {p : String × Json → Bool} {object : Json}
    {entries : List (String × Json)} {e : String × Json} (h : e ∈ putFirst p object entries) :
    e ∈ entries ∨ e.2 = object := by
  induction entries with
  | nil => exact Or.inl h
  | cons first rest ih =>
    unfold putFirst at h
    by_cases hfirst : p first = true
    · simp only [hfirst, if_true, List.mem_cons] at h
      rcases h with rfl | h
      · exact Or.inr rfl
      · exact Or.inl (List.mem_cons_of_mem _ h)
    · simp only [hfirst, Bool.false_eq_true, if_false, List.mem_cons] at h
      rcases h with rfl | h
      · exact Or.inl List.mem_cons_self
      · rcases ih h with h | h
        · exact Or.inl (List.mem_cons_of_mem _ h)
        · exact Or.inr h

theorem find?_insert {m : Memory} {kind kind' : Kind} {ns name ns' name' : String}
    {current : Json} (h : m.find? kind ns name = some current) (object : Json) :
    (m.insert kind' ns' name' object).find? kind ns name = some current := by
  simp only [find?, Option.map_eq_some_iff] at h
  obtain ⟨entry, hentry, hcurrent⟩ := h
  simp only [find?, insert, List.find?_append, hentry, Option.some_or, Option.map_some, hcurrent]

theorem find?_delete_of_ne {m m' : Memory} {kind kind' : Kind} (hkind : kind ∈ Kind.all)
    (hkind' : kind' ∈ Kind.all) {ns name ns' name' : String}
    (hdelete : m.delete kind' ns' name' = .ok m')
    (hne : ¬ SameTarget kind ns name kind' ns' name') :
    m'.find? kind ns name = m.find? kind ns name := by
  unfold delete at hdelete
  split at hdelete
  · cases hdelete
    have hkept : ∀ entry, holds kind ns name entry = true →
        (!holds kind' ns' name' entry) = true := by
      intro entry h
      cases h' : holds kind' ns' name' entry with
      | false => rfl
      | true => exact absurd (sameTarget_of_holds hkind hkind' h h') hne
    unfold find?
    rw [List.find?_filter]
    congr 1
    apply congrArg (fun p => m.objects.find? p)
    funext entry
    cases h : holds kind ns name entry with
    | false => simp
    | true => simp [hkept entry h]
  · cases hdelete

/-! ### What a replacement does -/

/-- The places of two entries hold the same kind of object. -/
theorem holds_next {kind : Kind} {object : Json} (n : Nat) (e : String × Json)
    (h : holds kind (objectNamespace object) (objectName object) e = true) :
    holds kind (objectNamespace object) (objectName object) (e.1, nextVersion n object) = true := by
  have hname : objectName (nextVersion n object) = objectName object :=
    Json.textAt_putAt_of_apart (by decide) _ _
  have hns : objectNamespace (nextVersion n object) = objectNamespace object :=
    Json.textAt_putAt_of_apart (by decide) _ _
  simp only [holds, Bool.and_eq_true] at h
  simp [holds, isObject, hname, hns, h.1]

/-- A replacement is refused and stores nothing, or it stores the offered object with the version
    after the stored one's; then the offer bore the version of the stored object or none. -/
theorem replace_cases (m : Memory) (kind : Kind) (object : Json) :
    (∃ f m', m.replace kind object = (.error f, m') ∧ m'.objects = m.objects ∧
      m'.replaced = m.replaced) ∨
    (∃ stored next m', m.replace kind object = (.ok next, m') ∧
      m.find? kind (objectNamespace object) (objectName object) = some stored ∧
      (version object = "" ∨ version object = toString (versionNumber (version stored))) ∧
      next = nextVersion (versionNumber (version stored)) object ∧
      m'.objects = putFirst (holds kind (objectNamespace object) (objectName object)) next
        m.objects ∧
      m'.replaced = m.replaced ++ [next]) := by
  unfold replace
  split
  · exact Or.inl ⟨_, _, rfl, rfl, rfl⟩
  · dsimp only
    split
    · exact Or.inl ⟨_, _, rfl, rfl, rfl⟩
    · rename_i stored hfind
      split
      · exact Or.inl ⟨_, _, rfl, rfl, rfl⟩
      · rename_i hfresh
        refine Or.inr ⟨stored, _, _, rfl, hfind, ?_, rfl, rfl, rfl⟩
        by_cases hblank : version object = ""
        · exact Or.inl hblank
        · by_cases hsame : version object = toString (versionNumber (version stored))
          · exact Or.inr hsame
          · exact absurd ⟨hblank, hsame⟩ hfresh

/-- Whether a call would store a version with no room in a word.  The cluster breaks down then and
    stores nothing. -/
def overflows (m : Memory) : Call → Bool
  | .replace kind object =>
    match (m.replace kind object).1 with
    | .ok next => version next == toString versionBound
    | .error _ => false
  | _ => false

/-! ### Stored versions -/

def Versioned (m : Memory) : Prop :=
  ∀ entry ∈ m.objects, ∃ v < versionBound, version entry.2 = toString v

theorem versioned_of_objects {m m' : Memory} (hobjects : m'.objects = m.objects)
    (hm : m.Versioned) : m'.Versioned := by
  intro entry hentry
  exact hm entry (hobjects ▸ hentry)

theorem find?_versioned {m : Memory} (hm : m.Versioned) {kind : Kind} {ns name : String}
    {current : Json} (h : m.find? kind ns name = some current) :
    ∃ v < versionBound, version current = toString v := by
  simp only [find?, Option.map_eq_some_iff] at h
  obtain ⟨entry, hentry, rfl⟩ := h
  exact hm entry (List.mem_of_find?_eq_some hentry)

theorem versioned_insert {m : Memory} (hm : m.Versioned) (kind : Kind) (ns name : String)
    {object : Json} (htakes : object.takes versionPath = true) :
    (m.insert kind ns name object).Versioned := by
  intro entry hentry
  simp only [insert, List.mem_append, List.mem_singleton] at hentry
  rcases hentry with hentry | rfl
  · exact hm entry hentry
  · refine ⟨1, by decide, ?_⟩
    have hname : ((object.putAt ["metadata", "name"] (.string name)).takes versionPath) = true := by
      rw [Json.takes_putAt_of_apart (by decide), htakes]
    apply Json.textAt_putAt_self
    split
    · rw [Json.takes_putAt_of_apart (by decide), hname]
    · exact hname

theorem versioned_delete {m m' : Memory} (hm : m.Versioned) {kind : Kind} {ns name : String}
    (h : m.delete kind ns name = .ok m') : m'.Versioned := by
  unfold delete at h
  split at h
  · cases h
    intro entry hentry
    exact hm entry (List.mem_filter.mp hentry).1
  · cases h

/-- A stored object is followed by the next version. -/
theorem version_after {m : Memory} (hm : m.Versioned) {kind : Kind} {object stored next : Json}
    {m' : Memory} (htakes : object.takes versionPath = true)
    (hroom : m.overflows (.replace kind object) = false)
    (hreplace : m.replace kind object = (.ok next, m'))
    (hfind : m.find? kind (objectNamespace object) (objectName object) = some stored)
    (hnext : next = nextVersion (versionNumber (version stored)) object) :
    ∃ v, v + 1 < versionBound ∧ version stored = toString v ∧ version next = toString (v + 1) ∧
      next = nextVersion v object := by
  obtain ⟨v, hv, hstored⟩ := find?_versioned hm hfind
  have hnumber : versionNumber (version stored) = v := by
    rw [hstored, versionNumber_toString hv]
  rw [hnumber] at hnext
  have hversion : version next = toString (v + 1) := by
    rw [hnext, version_nextVersion htakes]
  refine ⟨v, ?_, hstored, hversion, hnext⟩
  have hbound : v + 1 ≠ versionBound := by
    intro heq
    simp only [overflows, hreplace, hversion, heq, beq_self_eq_true] at hroom
    exact absurd hroom (by decide)
  omega

theorem versioned_replace {m : Memory} (hm : m.Versioned) {kind : Kind} {object : Json}
    (htakes : object.takes versionPath = true)
    (hroom : m.overflows (.replace kind object) = false) :
    (m.replace kind object).2.Versioned := by
  rcases m.replace_cases kind object with
    ⟨f, m', hreplace, hobjects, -⟩ | ⟨stored, next, m', hreplace, hfind, -, hnext, hobjects, -⟩
  · rw [hreplace]
    exact versioned_of_objects hobjects hm
  · rw [hreplace]
    intro entry hentry
    rw [hobjects] at hentry
    rcases mem_putFirst hentry with hold | hnew
    · exact hm entry hold
    · obtain ⟨v, hv, -, hversion, -⟩ := version_after hm htakes hroom hreplace hfind hnext
      exact ⟨v + 1, hv, hnew ▸ hversion⟩

/-! ### What somebody has read -/

/-- An object of that name was read, and since then its version was only raised: while the version
    is still the same, so is the content. -/
def Recalls (m : Memory) (kind : Kind) (ns name : String) (seen : Json) : Prop :=
  isObject kind ns name seen = true ∧
    ∃ (current : Json) (u v : Nat), m.find? kind ns name = some current ∧
      version seen = toString u ∧ version current = toString v ∧ u ≤ v ∧ (u = v → current = seen)

theorem recalls_of_find? {m m' : Memory} {kind : Kind} {ns name : String} {seen : Json}
    (hfind : ∀ current, m.find? kind ns name = some current →
      m'.find? kind ns name = some current)
    (h : m.Recalls kind ns name seen) : m'.Recalls kind ns name seen := by
  obtain ⟨hseen, current, u, v, hcurrent, hu, hv, hle, hsame⟩ := h
  exact ⟨hseen, current, u, v, hfind current hcurrent, hu, hv, hle, hsame⟩

theorem version_ne_blank_of_recalls {m : Memory} {kind : Kind} {ns name : String} {seen : Json}
    (h : m.Recalls kind ns name seen) : version seen ≠ "" := by
  obtain ⟨-, current, u, v, -, hu, -⟩ := h
  intro hblank
  exact toString_ne_blank u (hu.symm.trans hblank)

theorem takes_of_recalls {m : Memory} {kind : Kind} {ns name : String} {seen : Json}
    (h : m.Recalls kind ns name seen) : seen.takes versionPath = true :=
  Json.takes_of_textAt_ne_blank (version_ne_blank_of_recalls h)

theorem recalls_get {m : Memory} (hm : m.Versioned) {kind : Kind} {ns name : String}
    {object : Json} (h : m.find? kind ns name = some object) :
    m.Recalls kind ns name object := by
  obtain ⟨v, -, hv⟩ := find?_versioned hm h
  refine ⟨?_, object, v, v, h, hv, hv, Nat.le_refl v, fun _ => rfl⟩
  simp only [find?, Option.map_eq_some_iff] at h
  obtain ⟨entry, hentry, rfl⟩ := h
  have hholds := List.find?_some hentry
  simp only [holds, Bool.and_eq_true] at hholds
  exact hholds.2

/-- The object that is found after an accepted replacement. -/
theorem find?_after {m m' : Memory} {kind kind' : Kind} (hkind : kind ∈ Kind.all)
    (hkind' : kind' ∈ Kind.all) (ns name : String) {object stored : Json} {n : Nat}
    (hfind : m.find? kind' (objectNamespace object) (objectName object) = some stored)
    (hobjects : m'.objects =
      putFirst (holds kind' (objectNamespace object) (objectName object)) (nextVersion n object)
        m.objects) :
    m'.find? kind ns name =
      if SameTarget kind ns name kind' (objectNamespace object) (objectName object) then
        some (nextVersion n object)
      else m.find? kind ns name := by
  have hp : ∀ e, holds kind' (objectNamespace object) (objectName object) e = true →
      holds kind' (objectNamespace object) (objectName object) (e.1, nextVersion n object) = true :=
    holds_next n
  by_cases hsame : SameTarget kind ns name kind' (objectNamespace object) (objectName object)
  · rw [if_pos hsame]
    simp only [find?, Option.map_eq_some_iff] at hfind
    obtain ⟨entry, hentry, -⟩ := hfind
    unfold find?
    rw [hobjects, holds_eq_of_sameTarget hsame]
    exact find?_putFirst_self hp hentry
  · rw [if_neg hsame]
    unfold find?
    rw [hobjects, find?_putFirst_of_apart hp]
    intro entry h' h
    exact hsame (sameTarget_of_holds hkind hkind' h h')

theorem recalls_replace {m : Memory} (hm : m.Versioned) {kind kind' : Kind}
    (hkind : kind ∈ Kind.all) (hkind' : kind' ∈ Kind.all) {ns name : String} {object seen : Json}
    (htakes : object.takes versionPath = true)
    (hroom : m.overflows (.replace kind' object) = false) (h : m.Recalls kind ns name seen) :
    (m.replace kind' object).2.Recalls kind ns name seen := by
  rcases m.replace_cases kind' object with
    ⟨f, m', hreplace, hobjects, -⟩ | ⟨stored, next, m', hreplace, hfind, -, hnext, hobjects, -⟩
  · rw [hreplace]
    apply recalls_of_find? _ h
    intro current hcurrent
    unfold find? at hcurrent ⊢
    rw [hobjects, hcurrent]
  · rw [hreplace]
    obtain ⟨v, -, hstored, hversion, rfl⟩ :=
      version_after hm htakes hroom hreplace hfind hnext
    have hafter := find?_after hkind hkind' ns name hfind hobjects
    by_cases hsame : SameTarget kind ns name kind' (objectNamespace object) (objectName object)
    · -- The object itself was replaced: its version has passed every version read before.
      rw [if_pos hsame] at hafter
      obtain ⟨hseen, current, u, w, hcurrent, hu, hw, hle, -⟩ := h
      have hcurrent' : current = stored := by
        rw [find?_of_sameTarget hsame, hfind] at hcurrent
        exact (Option.some.inj hcurrent).symm
      have hwv : w = v := toString_injective (hw.symm.trans (hcurrent' ▸ hstored))
      refine ⟨hseen, _, u, v + 1, hafter, hu, hversion, by omega, ?_⟩
      intro heq
      omega
    · rw [if_neg hsame] at hafter
      apply recalls_of_find? _ h
      intro current hcurrent
      rw [hafter, hcurrent]

end Memory
end ClusterAgent.Cluster
