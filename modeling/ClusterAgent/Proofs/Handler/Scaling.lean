/-
  ClusterAgent/Proofs/Handler/Scaling.lean
  ========================================
  **What updates ask of a cluster.**

  `Scales` describes all that the handler of a scale request may still ask, given the
  object that it has read last: it reads its own object and offers that very object
  with the replica count, nothing else.  `Stores` does the same for the handler that
  stores a document; its offers have room for a version.
-/
import ClusterAgent.Handler.Objects
import ClusterAgent.Proofs.Cluster.Versions

namespace ClusterAgent.Handler

open Cluster (Failure objectName objectNamespace isObject versionPath)

abbrev replicasPath : List String := ["spec", "replicas"]

/-! ### The replica count -/

/-- Whether an object has a specification that can hold a replica count, or none at all. -/
def hasScale (object : Json) : Bool :=
  match object.at? ["spec"] with
  | none => true
  | some (.object _) => true
  | some _ => false

def rescaled (kind : Kind) (replicas : Int) (object : Json) : Json :=
  if kind.scales ∧ hasScale object then object.putAt replicasPath (.int replicas) else object

/-- Objects that are no mapping stay as they are, and so do those whose specification is none. -/
theorem withReplicas_eq {object : Json} (hobject : object.isObject = true) (replicas : Int) :
    withReplicas replicas object =
      if hasScale object then object.putAt replicasPath (.int replicas) else object := by
  cases object with
  | object fields =>
    cases hspec : Json.find? "spec" fields with
    | none =>
      simp [withReplicas, hasScale, Json.at?, Json.field?, hspec, Json.putAt, Json.insert]
    | some spec =>
      cases spec <;>
        simp [withReplicas, hasScale, Json.at?, Json.field?, hspec, Json.putAt]
  | null | bool _ | number _ | string _ | array _ => simp [Json.isObject] at hobject

theorem apart_of_field {key other : String} (h : key ≠ other) (p q : List String) :
    Json.Apart (key :: p) (other :: q) := by
  constructor
  · intro hprefix
    exact h (List.cons_prefix_cons.mp hprefix).1
  · intro hprefix
    exact h (List.cons_prefix_cons.mp hprefix).1.symm

theorem textAt_rescaled {key : String} (h : "spec" ≠ key) (path : List String) (kind : Kind)
    (replicas : Int) (object : Json) :
    (rescaled kind replicas object).textAt (key :: path) = object.textAt (key :: path) := by
  unfold rescaled
  split
  · exact Json.textAt_putAt_of_apart (apart_of_field h _ _) _ _
  · rfl

theorem version_rescaled {kind : Kind} {replicas : Int} {object : Json} :
    Cluster.Memory.version (rescaled kind replicas object) = Cluster.Memory.version object :=
  textAt_rescaled (by decide) _ _ _ _

theorem takes_rescaled {kind : Kind} {replicas : Int} {object : Json} :
    (rescaled kind replicas object).takes versionPath = object.takes versionPath := by
  unfold rescaled
  split
  · exact Json.takes_putAt_of_apart (by decide) _ _
  · rfl

theorem objectNamespace_rescaled {kind : Kind} {replicas : Int} {object : Json} :
    objectNamespace (rescaled kind replicas object) = objectNamespace object :=
  textAt_rescaled (by decide) _ _ _ _

theorem objectName_rescaled {kind : Kind} {replicas : Int} {object : Json} :
    objectName (rescaled kind replicas object) = objectName object :=
  textAt_rescaled (by decide) _ _ _ _

theorem isObject_rescaled {kind kind' : Kind} {ns name : String} {replicas : Int}
    {object : Json} :
    isObject kind ns name (rescaled kind' replicas object) = isObject kind ns name object := by
  unfold isObject
  rw [objectName_rescaled, objectNamespace_rescaled]

theorem scaled_eq {kind : Kind} {replicas : Int} {first object : Json} {latest : Option Json}
    (hlatest : latest.getD first = object) (hobject : object.isObject = true) :
    scaled kind replicas first latest = rescaled kind replicas object := by
  unfold scaled rescaled
  rw [hlatest]
  by_cases hkind : kind.scales = true
  · simp [hkind, withReplicas_eq hobject]
  · simp [hkind]

theorem isObject_of_name {kind : Kind} {ns name : String} {object : Json} (hname : name ≠ "")
    (h : isObject kind ns name object = true) : object.isObject = true := by
  simp only [isObject, Bool.and_eq_true, beq_iff_eq] at h
  have hblank : objectName object ≠ "" := by
    rw [h.1]
    exact hname
  exact Json.isObject_of_textAt_ne_blank hblank

/-! ### Scaling -/

/-- All that a scale request may still ask, given the object that it has read and not offered. -/
inductive Scales (kind : Kind) (p : ScaleParams) : Option Json → Program Response → Prop where
  | done (seen : Option Json) (r : Response) : Scales kind p seen (.done r)
  | read (seen : Option Json) {next : Except Failure Json → Program Response}
      (failed : ∀ f, Scales kind p none (next (.error f)))
      (found : ∀ object, isObject kind p.ns p.name object = true →
        Scales kind p (some object) (next (.ok object))) :
      Scales kind p seen (.ask (.cluster (.get kind p.ns p.name)) next)
  | pause (seen : Option Json) (ms : Nat) {next : Unit → Program Response}
      (later : Scales kind p none (next ())) : Scales kind p seen (.ask (.pause ms) next)
  | offer (seen : Json) {next : Except Failure Json → Program Response}
      (later : ∀ reply, Scales kind p none (next reply)) :
      Scales kind p (some seen)
        (.ask (.cluster (.replace kind (rescaled kind p.replicas seen))) next)

theorem scales_replaceFrom {kind : Kind} {p : ScaleParams} (hname : p.name ≠ "") (first : Json)
    (left : Nat) {seen : Json} (hseen : isObject kind p.ns p.name seen = true) :
    Scales kind p (some seen)
      ((replaceFrom kind p.ns (scaled kind p.replicas first) left
        (rescaled kind p.replicas seen)).bind fun result => .done (updateResponse result)) := by
  induction left generalizing seen with
  | zero =>
    unfold replaceFrom
    apply Scales.offer
    intro reply
    cases reply with
    | ok stored => exact Scales.done _ _
    | error f =>
      dsimp only
      split
      · exact Scales.done _ _
      · exact Scales.done _ _
  | succ left ih =>
    unfold replaceFrom
    apply Scales.offer
    intro reply
    cases reply with
    | ok stored => exact Scales.done _ _
    | error f =>
      dsimp only
      split
      · apply Scales.pause
        have htarget : objectName (rescaled kind p.replicas seen) = p.name := by
          rw [objectName_rescaled]
          simp only [isObject, Bool.and_eq_true, beq_iff_eq] at hseen
          exact hseen.1
        rw [htarget]
        apply Scales.read
        · intro f
          exact Scales.done _ _
        · intro latest hlatest
          have hcandidate : scaled kind p.replicas first (some latest) =
              rescaled kind p.replicas latest := scaled_eq rfl (isObject_of_name hname hlatest)
          dsimp only
          rw [hcandidate]
          exact ih hlatest
      · exact Scales.done _ _

theorem scales_updateObj (kind : Kind) (params : Json) :
    Scales kind (ScaleParams.schema.decodeLenient params) none (updateObj kind params) := by
  unfold updateObj
  dsimp only
  split
  · exact Scales.done _ _
  · rename_i hcheck
    split
    · exact Scales.done _ _
    · apply Scales.read
      · intro f
        exact Scales.done _ _
      · intro first hfirst
        have hname : (ScaleParams.schema.decodeLenient params).name ≠ "" := by
          intro hblank
          simp [checkTarget, hblank] at hcheck
        dsimp only
        unfold retryOnConflict
        rw [scaled_eq rfl (isObject_of_name hname hfirst)]
        exact scales_replaceFrom hname first _ hfirst

/-! ### Storing -/

/-- All that a request to store a document may still ask. -/
inductive Stores (kind : Kind) : Program Response → Prop where
  | done (r : Response) : Stores kind (.done r)
  | read (ns name : String) {next : Except Failure Json → Program Response}
      (later : ∀ reply, Stores kind (next reply)) :
      Stores kind (.ask (.cluster (.get kind ns name)) next)
  | pause (ms : Nat) {next : Unit → Program Response} (later : Stores kind (next ())) :
      Stores kind (.ask (.pause ms) next)
  | offer {object : Json} (room : object.takes versionPath = true)
      {next : Except Failure Json → Program Response}
      (later : ∀ reply, Stores kind (next reply)) :
      Stores kind (.ask (.cluster (.replace kind object)) next)

theorem takes_offer (d : Document) (latest : Option Json) :
    (d.offer latest).takes versionPath = true := by
  cases latest <;> simp [Document.offer, Document.withMetadata, Json.takes]

theorem stores_replaceFrom (kind : Kind) (ns : String) (d : Document) (left : Nat)
    (latest : Option Json) :
    Stores kind ((replaceFrom kind ns d.offer left (d.offer latest)).bind
      fun result => .done (updateResponse result)) := by
  induction left generalizing latest with
  | zero =>
    unfold replaceFrom
    apply Stores.offer (takes_offer d latest)
    intro reply
    cases reply with
    | ok stored => exact Stores.done _
    | error f =>
      dsimp only
      split
      · exact Stores.done _
      · exact Stores.done _
  | succ left ih =>
    unfold replaceFrom
    apply Stores.offer (takes_offer d latest)
    intro reply
    cases reply with
    | ok stored => exact Stores.done _
    | error f =>
      dsimp only
      split
      · apply Stores.pause
        apply Stores.read
        intro reply
        cases reply with
        | error f => exact Stores.done _
        | ok latest => exact ih (some latest)
      · exact Stores.done _

/-- The handler that stores a document asks nothing else. -/
theorem stores_updateYaml (kind : Kind) (params : Json) :
    Stores kind (updateYaml kind params) := by
  unfold updateYaml
  dsimp only
  split
  · exact Stores.done _
  · rename_i document _
    exact stores_replaceFrom kind _ document _ none

end ClusterAgent.Handler
