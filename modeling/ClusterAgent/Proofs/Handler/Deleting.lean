/-
  ClusterAgent/Proofs/Handler/Deleting.lean
  =========================================
  **What a list of targets deletes.**

  Targets are deleted one after the other, and the first one that matches no object ends
  the request.  What was deleted before it stays deleted, and nothing else is touched:
  `deletes_up_to_the_first_missing` says so for every list, with all that is asked of the
  cluster.

  So a success means that no target is left (`success_leaves_no_target`), provided that
  the list could be read.  It is read as a whole: one element that is no target makes the
  request one without targets, which succeeds and deletes nothing
  (`unreadable_element_spares_all`).
-/
import ClusterAgent.Proofs.Handler.Alone
import ClusterAgent.Proofs.Handler.Entries
import ClusterAgent.Proofs.Handler.Parameters
import Mathlib.Data.Nat.Find

namespace ClusterAgent.Handler

open Cluster (Call Client Failure Memory)
open Cluster.Memory (holds missing)
open Json (DistinctKeys Schema)

variable {σ α : Type} {kind : Kind} {m : Memory} {t : DeleteTarget} {targets : List DeleteTarget}
  {log : List Call} {i : Nat}

/-! ### The calls of a program -/

/-- The same client, and the calls that it has answered. -/
def noting (client : Client σ) : Client (σ × List Call) where
  call s c := ((client.call s.1 c).1, (client.call s.1 c).2, s.2 ++ [c])
  openShell s := client.openShell s.1
  openLog s := client.openLog s.1

/-- Noting the calls changes nothing about the run. -/
theorem alone_of_noting {client : Client σ} {p : Program α} {s s' : σ} {log log' : List Call}
    {result : α} (h : p.alone (noting client) (s, log) = some (result, s', log')) :
    p.alone client s = some (result, s') := by
  induction p generalizing s log with
  | done result => cases h; rfl
  | fail panic => cases h
  | ask act next ih =>
    cases act with
    | cluster c => exact ih _ h
    | pause ms => exact ih () h
    | setGate | openShell | findShell | sendResize | sendInput | openLog | cancelLog => cases h

/-! ### Targets -/

def DeleteTarget.call (kind : Kind) (t : DeleteTarget) : Call :=
  .delete kind t.ns t.name

/-- Whether a stored entry is an object that one of the targets matches. -/
def isAmong (kind : Kind) (targets : List DeleteTarget) (entry : String × Json) : Bool :=
  targets.any fun t => holds kind t.ns t.name entry

/-- The cluster without the objects that the targets match.  All other objects are as they were,
    one after the other. -/
def without (m : Memory) (kind : Kind) (targets : List DeleteTarget) : Memory :=
  { m with objects := m.objects.filter fun entry => !isAmong kind targets entry }

/-- The target at a position matches no object once the targets before it have been removed. -/
def MissingAt (kind : Kind) (m : Memory) (targets : List DeleteTarget) (i : Nat) : Prop :=
  ∃ t, targets[i]? = some t ∧
    ∀ entry ∈ (without m kind (targets.take i)).objects, holds kind t.ns t.name entry = false

theorem without_nil (m : Memory) (kind : Kind) : without m kind [] = m := by
  simp [without, isAmong]

theorem without_cons (m : Memory) (kind : Kind) (t : DeleteTarget) (targets : List DeleteTarget) :
    without m kind (t :: targets) = without (without m kind [t]) kind targets := by
  simp [without, isAmong, List.filter_filter, Bool.and_comm]

theorem missingAt_zero :
    MissingAt kind m (t :: targets) 0 ↔
      ∀ entry ∈ m.objects, holds kind t.ns t.name entry = false := by
  simp [MissingAt, without_nil]

theorem missingAt_succ :
    MissingAt kind m (t :: targets) (i + 1) ↔ MissingAt kind (without m kind [t]) targets i := by
  simp only [MissingAt, List.getElem?_cons_succ, List.take_succ_cons,
    without_cons m kind t (targets.take i)]

/-! ### One target after the other -/

/-- The answer that names a target which is not there. -/
def notDeleted (kind : Kind) (t : DeleteTarget) : Response :=
  Response.error .deleteError ("Delete " ++ t.name ++ " error: " ++ (missing kind t.name).message)

theorem alone_deleteAll_of_missing (h : MissingAt kind m (t :: targets) 0) :
    (deleteAll kind (t :: targets)).alone (noting Memory.client) (m, log) =
      some (notDeleted kind t, m, log ++ [t.call kind]) := by
  have hnone : m.objects.any (holds kind t.ns t.name) = false := by
    simpa using missingAt_zero.mp h
  have hcall : Memory.client.call m (.delete kind t.ns t.name) =
      (.error (missing kind t.name), m) := by
    simp [Memory.client, Memory.call, Memory.delete, hnone]
  simp [deleteAll, Program.alone, noting, hcall, notDeleted, DeleteTarget.call]

theorem alone_deleteAll_of_found (h : ¬ MissingAt kind m (t :: targets) 0) :
    (deleteAll kind (t :: targets)).alone (noting Memory.client) (m, log) =
      (deleteAll kind targets).alone (noting Memory.client)
        (without m kind [t], log ++ [t.call kind]) := by
  have hsome : m.objects.any (holds kind t.ns t.name) = true := by
    simpa using mt missingAt_zero.mpr h
  have hcall : Memory.client.call m (.delete kind t.ns t.name) =
      (.ok (), without m kind [t]) := by
    simp [Memory.client, Memory.call, Memory.delete, hsome, without, isAmong]
  simp [deleteAll, Program.alone, noting, hcall, DeleteTarget.call]

theorem alone_deleteAll_of_all_found (log : List Call) (h : ∀ i, ¬ MissingAt kind m targets i) :
    (deleteAll kind targets).alone (noting Memory.client) (m, log) =
      some (Response.ok, without m kind targets, log ++ targets.map (·.call kind)) := by
  induction targets generalizing m log with
  | nil => simp [deleteAll, Program.alone, without_nil]
  | cons t targets ih =>
    have hlater : ∀ i, ¬ MissingAt kind (without m kind [t]) targets i := by
      intro i hmissing
      exact h (i + 1) (missingAt_succ.mpr hmissing)
    rw [alone_deleteAll_of_found (h 0), ih _ hlater, without_cons m kind t targets]
    simp

theorem alone_deleteAll_of_first_missing (log : List Call) (ht : targets[i]? = some t)
    (h : MissingAt kind m targets i) (hfirst : ∀ j < i, ¬ MissingAt kind m targets j) :
    (deleteAll kind targets).alone (noting Memory.client) (m, log) =
      some (notDeleted kind t, without m kind (targets.take i),
        log ++ (targets.take (i + 1)).map (·.call kind)) := by
  induction targets generalizing m log i with
  | nil => cases ht
  | cons first targets ih =>
    cases i with
    | zero =>
      cases ht
      rw [alone_deleteAll_of_missing h]
      simp [without_nil]
    | succ i =>
      have hlater : ∀ j < i, ¬ MissingAt kind (without m kind [first]) targets j := by
        intro j hj hmissing
        exact hfirst (j + 1) (Nat.succ_lt_succ hj) (missingAt_succ.mpr hmissing)
      rw [alone_deleteAll_of_found (hfirst 0 (Nat.succ_pos i)),
        ih _ ht (missingAt_succ.mp h) hlater, List.take_succ_cons,
        without_cons m kind first (targets.take i)]
      simp

/-- **Targets are deleted up to the first that is missing.**  If none is missing in its turn, the
    request succeeds and all targets are gone.  Otherwise the answer names the first that is
    missing, nothing is asked after it, and the targets before it are gone.  Nothing else is
    changed either way. -/
theorem deletes_up_to_the_first_missing (kind : Kind) (m : Memory) (params : Json) :
    let targets := (DeleteParams.schema.decodeLenient params).resources
    let run := (delete kind params).alone (noting Memory.client) (m, [])
    ((∀ i, ¬ MissingAt kind m targets i) →
      run = some (Response.ok, without m kind targets, targets.map (·.call kind))) ∧
    ∀ i t, targets[i]? = some t → MissingAt kind m targets i →
      (∀ j < i, ¬ MissingAt kind m targets j) →
        run = some (notDeleted kind t, without m kind (targets.take i),
          (targets.take (i + 1)).map (·.call kind)) := by
  intro targets run
  constructor
  · intro hfound
    exact alone_deleteAll_of_all_found [] hfound
  · intro i t ht hmissing hfirst
    exact alone_deleteAll_of_first_missing [] ht hmissing hfirst

/-- A service is named twice: the first time it is deleted, and the second time it is missing. -/
theorem deletes_up_to_the_first_missing_of_repeated :
    let kind := Kind.all[14]
    let m := Memory.empty.insert kind "shop" "cart" (.object [])
    let cart : Json := .object [("name", .string "cart"), ("namespace", .string "shop")]
    let params : Json := .object [("resources", .array [cart, cart])]
    let target : DeleteTarget := ⟨"cart", "shop"⟩
    (¬ MissingAt kind m [target, target] 0 ∧ MissingAt kind m [target, target] 1) ∧
      (delete kind params).alone (noting Memory.client) (m, []) =
        some (Response.error .deleteError "Delete cart error: services \"cart\" not found",
          without m kind [target],
          [.delete kind "shop" "cart", .delete kind "shop" "cart"]) := by
  intro kind m cart params target
  have hresources : (DeleteParams.schema.decodeLenient params).resources = [target, target] := by
    decide +kernel
  have hfound : ¬ MissingAt kind m [target, target] 0 := by
    rw [missingAt_zero]
    decide +kernel
  have hmissing : MissingAt kind m [target, target] 1 := by
    rw [missingAt_succ, missingAt_zero]
    decide +kernel
  have hrun := (deletes_up_to_the_first_missing kind m params).2 1 target
  rw [hresources] at hrun
  refine ⟨⟨hfound, hmissing⟩, hrun rfl hmissing ?_⟩
  intro j hj
  rw [Nat.lt_one_iff.mp hj]
  exact hfound

/-! ### Elements of a list -/

/-- An element that names a target: an object, or a list of two items at most, in which a name and
    a namespace are texts where they are given. -/
def IsTarget : Json → Prop
  | .object fields => ∀ key ∈ ["name", "namespace"], ∀ value,
      Json.find? key fields = some value → value.text?.isSome = true
  | .array items => items.length ≤ 2 ∧ ∀ item ∈ items, item.text?.isSome = true
  | _ => False

theorem asString_eq_text? : Json.asString = Json.text? := by
  funext j
  cases j <;> rfl

theorem isTarget_iff {element : Json} :
    IsTarget element ↔ (DeleteTarget.schema.decode element).isSome = true := by
  cases element with
  | object fields =>
    simp [Schema.decode, Schema.ofObject_isSome_iff, DeleteTarget.schema, Json.Field.Fits,
      asString_eq_text?, IsTarget]
  | array items =>
    cases items with
    | nil => simp [IsTarget, Schema.decode, Schema.ofItems]
    | cons name items =>
      cases items with
      | nil =>
        cases hname : name.text? <;>
          simp [IsTarget, Schema.decode, Schema.ofItems, DeleteTarget.schema, Json.Field.store,
            asString_eq_text?, hname]
      | cons ns items =>
        cases items with
        | nil =>
          cases hname : name.text? <;> cases hns : ns.text? <;>
            simp [IsTarget, Schema.decode, Schema.ofItems, DeleteTarget.schema, Json.Field.store,
              asString_eq_text?, hname, hns]
        | cons third items =>
          have hnone : DeleteTarget.schema.decode (.array (name :: ns :: third :: items)) = none :=
            Schema.ofItems_of_lt (by simp [DeleteTarget.schema]) _
          simp [IsTarget, hnone]
  | null | bool _ | number _ | string _ => simp [IsTarget, Schema.decode]

instance : DecidablePred IsTarget :=
  fun _ => decidable_of_iff _ isTarget_iff.symm

theorem decode_named {element : Json} {name : String} (htarget : IsTarget element)
    (hname : element.field? "name" = some (.string name)) :
    DeleteTarget.schema.decode element = some ⟨name, element.textAt ["namespace"]⟩ := by
  cases element with
  | object fields =>
    have hfind : Json.find? "name" fields = some (.string name) := hname
    have htext : (Json.string name).text? = some name := rfl
    cases hns : Json.find? "namespace" fields with
    | none =>
      simp [Schema.decode, Schema.ofObject, DeleteTarget.schema, Json.Field.store, Json.textAt,
        Json.at?, Json.field?, asString_eq_text?, hfind, hns, htext]
    | some value =>
      obtain ⟨ns, hvalue⟩ := Option.isSome_iff_exists.mp (htarget "namespace" (by simp) value hns)
      simp [Schema.decode, Schema.ofObject, DeleteTarget.schema, Json.Field.store, Json.textAt,
        Json.at?, Json.field?, asString_eq_text?, hfind, hns, htext, hvalue]
  | null | bool _ | number _ | string _ | array _ => cases hname

/-- The list is read if each of its elements is; -/
theorem asList_of_forall {item : Json → Option α} {elements : List Json}
    (h : ∀ e ∈ elements, (item e).isSome = true) :
    Json.asList item (.array elements) = some (elements.filterMap item) := by
  induction elements with
  | nil => rfl
  | cons e elements ih =>
    obtain ⟨he, hrest⟩ := List.forall_mem_cons.mp h
    obtain ⟨value, hvalue⟩ := Option.isSome_iff_exists.mp he
    have hmap : elements.mapM item = some (elements.filterMap item) := ih hrest
    simp [Json.asList, hvalue, hmap]

/-- otherwise there is no list. -/
theorem asList_of_exists {item : Json → Option α} {elements : List Json} {e : Json}
    (he : e ∈ elements) (hnone : item e = none) : Json.asList item (.array elements) = none := by
  induction elements with
  | nil => cases he
  | cons first elements ih =>
    rcases List.mem_cons.mp he with rfl | he
    · simp [Json.asList, hnone]
    · have hmap : elements.mapM item = none := ih he
      cases hfirst : item first <;> simp [Json.asList, hfirst, hmap]

theorem resources_of_list {object : List (String × Json)} {elements : List Json}
    (hkeys : DistinctKeys object)
    (hlist : Json.find? "resources" object = some (.array elements)) :
    (DeleteParams.schema.decodeLenient (.object object)).resources =
      (Json.asList DeleteTarget.schema.decode (.array elements)).getD [] := by
  have hlawful : DeleteParams.schema.Lawful :=
    lawful_paramSchemas ⟨_, DeleteParams.schema⟩ (by simp [paramSchemas])
  have hget := hlawful.get_decodeLenient hkeys (f := DeleteParams.schema.fields[0]) (by simp)
  have hfind : Json.find? DeleteParams.schema.fields[0].name object = some (.array elements) :=
    hlist
  rw [hfind] at hget
  exact hget

theorem resources_of_targets {object : List (String × Json)} {elements : List Json}
    (hkeys : DistinctKeys object)
    (hlist : Json.find? "resources" object = some (.array elements))
    (h : ∀ e ∈ elements, IsTarget e) :
    (DeleteParams.schema.decodeLenient (.object object)).resources =
      elements.filterMap DeleteTarget.schema.decode := by
  rw [resources_of_list hkeys hlist, asList_of_forall fun e he => isTarget_iff.mp (h e he)]
  rfl

theorem resources_of_unreadable {object : List (String × Json)} {elements : List Json}
    (hkeys : DistinctKeys object)
    (hlist : Json.find? "resources" object = some (.array elements)) {e : Json}
    (he : e ∈ elements) (h : ¬ IsTarget e) :
    (DeleteParams.schema.decodeLenient (.object object)).resources = [] := by
  have hnone : DeleteTarget.schema.decode e = none := by
    simpa using mt isTarget_iff.mpr h
  rw [resources_of_list hkeys hlist, asList_of_exists he hnone]
  rfl

/-! ### After a success -/

theorem find?_without (ht : t ∈ targets) :
    (without m kind targets).find? kind t.ns t.name = none := by
  have hnone : (without m kind targets).objects.find? (holds kind t.ns t.name) = none := by
    apply List.find?_eq_none.mpr
    intro entry hentry hholds
    have hkept := (List.mem_filter.mp hentry).2
    have hamong : isAmong kind targets entry = true := List.any_eq_true.mpr ⟨t, ht, hholds⟩
    simp [hamong] at hkept
  simp [Memory.find?, hnone]

theorem length_without_lt (h : ¬ MissingAt kind m targets 0) (hne : targets ≠ []) :
    (without m kind targets).objects.length < m.objects.length := by
  obtain ⟨t, rest, rfl⟩ := List.exists_cons_of_ne_nil hne
  have hsome : ∃ entry ∈ m.objects, holds kind t.ns t.name entry = true := by
    simpa using mt missingAt_zero.mpr h
  obtain ⟨entry, hentry, hholds⟩ := hsome
  apply List.length_filter_lt_length_iff_exists.mpr
  refine ⟨entry, hentry, ?_⟩
  simp [isAmong, hholds]

/-- A request either succeeds, and then no target was missing, or names one that was. -/
theorem alone_deleteAll_cases (kind : Kind) (m : Memory) (targets : List DeleteTarget) :
    ((∀ i, ¬ MissingAt kind m targets i) ∧ (deleteAll kind targets).alone Memory.client m =
      some (Response.ok, without m kind targets)) ∨
    ∃ i t, (deleteAll kind targets).alone Memory.client m =
      some (notDeleted kind t, without m kind (targets.take i)) := by
  classical
  by_cases hmissing : ∃ i, MissingAt kind m targets i
  · obtain ⟨t, ht, -⟩ := Nat.find_spec hmissing
    right
    refine ⟨Nat.find hmissing, t, ?_⟩
    apply alone_of_noting
    apply alone_deleteAll_of_first_missing [] ht (Nat.find_spec hmissing)
    intro j hj
    exact Nat.find_min hmissing hj
  · have hfound : ∀ i, ¬ MissingAt kind m targets i := not_exists.mp hmissing
    left
    refine ⟨hfound, ?_⟩
    apply alone_of_noting
    exact alone_deleteAll_of_all_found [] hfound

theorem gone_of_success {response : Response} {m' : Memory}
    (hrun : (deleteAll kind targets).alone Memory.client m = some (response, m'))
    (hsuccess : response.isSuccess = true) (hne : targets ≠ []) :
    (∀ t ∈ targets, m'.find? kind t.ns t.name = none) ∧
      m'.objects.length < m.objects.length := by
  rcases alone_deleteAll_cases kind m targets with ⟨hfound, hall⟩ | ⟨i, t, hstopped⟩
  · cases hall.symm.trans hrun
    constructor
    · intro t ht
      exact find?_without ht
    · exact length_without_lt (hfound 0) hne
  · cases hstopped.symm.trans hrun
    cases hsuccess

/-- **A success leaves no target.**  Let a request to delete have a list with something in it.  If
    every element is a target and the request succeeds, then no element that has a name matches a
    stored object any more, and at least one object is gone.  If some element is no target, then
    the request has no targets at all: it succeeds, and nothing is deleted. -/
theorem success_leaves_no_target (kind : Kind) (hkind : kind ∈ Kind.all)
    (haction : Action.delete ∈ kind.actions) (m : Memory) (object : List (String × Json))
    (hkeys : DistinctKeys object) (elements : List Json)
    (hlist : Json.find? "resources" object = some (.array elements)) (hne : elements ≠ []) :
    ∃ deleter response m', all.lookup kind.resource Action.delete.name = some deleter ∧
      (deleter (.object object)).alone Memory.client m = some (response, m') ∧
      ((∀ e ∈ elements, IsTarget e) → response.isSuccess = true →
        (∀ e ∈ elements, ∀ name, e.field? "name" = some (.string name) →
          m'.find? kind (e.textAt ["namespace"]) name = none) ∧
        m'.objects.length < m.objects.length) ∧
      ((∃ e ∈ elements, ¬ IsTarget e) → response = Response.ok ∧ m' = m) := by
  obtain ⟨response, m', hrun⟩ : ∃ response m',
      (delete kind (.object object)).alone Memory.client m = some (response, m') := by
    rcases alone_deleteAll_cases kind m
      (DeleteParams.schema.decodeLenient (.object object)).resources with ⟨-, h⟩ | ⟨i, t, h⟩
    · exact ⟨_, _, h⟩
    · exact ⟨_, _, h⟩
  refine ⟨delete kind, response, m', lookup_all hkind haction rfl, hrun, ?_, ?_⟩
  · intro htargets hsuccess
    rw [delete, resources_of_targets hkeys hlist htargets] at hrun
    have hsome : elements.filterMap DeleteTarget.schema.decode ≠ [] := by
      obtain ⟨e, he⟩ := List.exists_mem_of_ne_nil elements hne
      obtain ⟨t, ht⟩ := Option.isSome_iff_exists.mp (isTarget_iff.mp (htargets e he))
      exact List.ne_nil_of_mem (List.mem_filterMap.mpr ⟨e, he, ht⟩)
    obtain ⟨hgone, hless⟩ := gone_of_success hrun hsuccess hsome
    refine ⟨?_, hless⟩
    intro e he name hname
    exact hgone _ (List.mem_filterMap.mpr ⟨e, he, decode_named (htargets e he) hname⟩)
  · rintro ⟨e, he, hnot⟩
    rw [delete, resources_of_unreadable hkeys hlist he hnot] at hrun
    cases hrun
    exact ⟨rfl, rfl⟩

/-- Two services are named, in the two forms of a target, and a third one stays. -/
theorem success_leaves_no_target_of_services :
    let kind := Kind.all[14]
    let m := ((Memory.empty.insert kind "shop" "cart" (.object [])).insert kind "lab" "cart"
      (.object [])).insert kind "shop" "till" (.object [])
    let cart : Json := .object [("name", .string "cart"), ("namespace", .string "shop")]
    let till : Json := .array [.string "till", .string "shop"]
    let object := [("resources", Json.array [cart, till])]
    kind.resource = "service" ∧ (∀ e ∈ [cart, till], IsTarget e) ∧
      ∃ deleter m', all.lookup "service" "delete" = some deleter ∧
        (deleter (.object object)).alone Memory.client m = some (Response.ok, m') ∧
        m'.find? kind "shop" "cart" = none ∧ m'.objects.length < m.objects.length := by
  intro kind m cart till object
  have htargets : ∀ e ∈ [cart, till], IsTarget e := by decide +kernel
  obtain ⟨deleter, response, m', hlookup, hrun, hgone, -⟩ :=
    success_leaves_no_target kind (by decide +kernel) (by decide +kernel) m object (by decide)
      [cart, till] rfl (by simp)
  have hown : all.lookup kind.resource Action.delete.name = some (delete kind) :=
    lookup_all (by decide +kernel) (by decide +kernel) rfl
  have hdelete : deleter = delete kind := Option.some.inj (hlookup.symm.trans hown)
  have hresult : ((delete kind (.object object)).alone Memory.client m).map (·.1) =
      some Response.ok := by decide +kernel
  rw [← hdelete, hrun] at hresult
  obtain rfl : response = Response.ok := Option.some.inj hresult
  obtain ⟨hnone, hless⟩ := hgone htargets rfl
  exact ⟨rfl, htargets, deleter, m', hlookup, hrun, hnone cart (by simp) "cart" rfl, hless⟩

/-- The name of one element is a number, and the service that another element names is not deleted
    either, although the request succeeds. -/
theorem unreadable_element_spares_all :
    let kind := Kind.all[14]
    let m := Memory.empty.insert kind "shop" "cart" (.object [])
    let cart : Json := .object [("name", .string "cart"), ("namespace", .string "shop")]
    let params : Json := .object [("resources", .array [cart, .object [("name", .int 7)]])]
    kind.resource = "service" ∧ Action.delete ∈ kind.actions ∧
      (∃ deleter, all.lookup "service" "delete" = some deleter ∧
        (deleter params).alone Memory.client m = some (Response.ok, m)) ∧
      (m.find? kind "shop" "cart").isSome = true := by
  intro kind m cart params
  have hlookup : all.lookup kind.resource Action.delete.name = some (delete kind) :=
    lookup_all (by decide +kernel) (by decide +kernel) rfl
  exact ⟨rfl, by decide +kernel, ⟨delete kind, hlookup, rfl⟩, by decide +kernel⟩

end ClusterAgent.Handler
