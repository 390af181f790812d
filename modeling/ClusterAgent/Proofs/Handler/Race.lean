/-
  ClusterAgent/Proofs/Handler/Race.lean
  =====================================
  **No update is lost to a scale request.**

  Any number of requests to scale an object and to store a document are under way at
  once.  Each is the program of its handler; the cluster answers their questions one
  at a time, in any order, while others insert, replace and delete objects and order
  conflicts.  What a scale request offers was computed from an object that it read
  some steps ago.  The version of that object protects whoever wrote since then: if
  the offer is accepted, nobody did (`scale_loses_no_update`).
-/
import ClusterAgent.Proofs.Handler.Scaling

namespace ClusterAgent.Handler

open Cluster (Failure Memory objectName objectNamespace isObject versionPath)
open Cluster.Memory (SameTarget Versioned Recalls)

/-! ### The race -/

/-- An order to change an object. -/
inductive Order where
  | scale (kind : Kind) (params : Json)
  | store (kind : Kind) (params : Json)
deriving DecidableEq, Repr

def Order.kind : Order → Kind
  | .scale kind _ => kind
  | .store kind _ => kind

def Order.program : Order → Program Response
  | .scale kind params => updateObj kind params
  | .store kind params => updateYaml kind params

/-- An order under way, and what is left to be done. -/
structure Update where
  order : Order
  program : Program Response

def Program.isOver {α : Type} : Program α → Bool
  | .ask _ _ => false
  | _ => true

/-- Whether a scale request under way means this object. -/
def Update.scales (u : Update) (kind : Kind) (ns name : String) : Bool :=
  match u.order with
  | .scale k params =>
    let p := ScaleParams.schema.decodeLenient params
    !u.program.isOver && decide (SameTarget k p.ns p.name kind ns name)
  | .store .. => false

/-- A cluster, and the updates that race for its objects. -/
structure Race where
  memory : Memory
  updates : List Update

/-- What can happen next. -/
inductive Race.Move where
  | begin (order : Order)
  /-- The next question of an update is answered. -/
  | answer (i : Nat)
  | insert (kind : Kind) (ns name : String) (object : Json)
  | replace (kind : Kind) (object : Json)
  | delete (kind : Kind) (ns name : String)
  /-- So many replacements to come will meet a conflict. -/
  | conflicts (n : Nat)

namespace Race

def start : Race := ⟨.empty, []⟩

/-- Gives an update the reply to its question.  A call that would make a version overflow is never
    answered. -/
def answer (race : Race) (i : Nat) (u : Update) : Race :=
  match u.program with
  | .ask (.cluster c) next =>
    if race.memory.overflows c then race
    else
      let (reply, memory) := race.memory.call c
      ⟨memory, race.updates.set i { u with program := next reply }⟩
  | .ask (.pause _) next =>
      { race with updates := race.updates.set i { u with program := next () } }
  | _ => race

/-- One move.  Only objects with room for a version can be stored from outside, and no object is
    deleted while it is being scaled. -/
def step (race : Race) : Move → Race
  | .begin order =>
    if order.kind ∈ Kind.all then
      { race with updates := race.updates ++ [⟨order, order.program⟩] }
    else race
  | .answer i =>
    match race.updates[i]? with
    | some u => race.answer i u
    | none => race
  | .insert kind ns name object =>
    if kind ∈ Kind.all ∧ object.takes versionPath then
      { race with memory := race.memory.insert kind ns name object }
    else race
  | .replace kind object =>
    if kind ∈ Kind.all ∧ object.takes versionPath ∧
        race.memory.overflows (.replace kind object) = false then
      { race with memory := (race.memory.replace kind object).2 }
    else race
  | .delete kind ns name =>
    if kind ∈ Kind.all ∧ race.updates.all (!·.scales kind ns name) then
      match race.memory.delete kind ns name with
      | .ok memory => { race with memory }
      | .error _ => race
    else race
  | .conflicts n => { race with memory := { race.memory with conflicts := n } }

def run (moves : List Move) : Race :=
  moves.foldl step start

/-! ### What every move preserves -/

/-- A program may still ask what a scale request asks; the object that it is about to offer is
    still recalled. -/
def Careful (m : Memory) (kind : Kind) (p : ScaleParams) (program : Program Response) : Prop :=
  ∃ seen, Scales kind p seen program ∧
    ∀ object, seen = some object → m.Recalls kind p.ns p.name object

/-- What an update may still ask fits its order. -/
def Fits (m : Memory) : Update → Prop
  | ⟨.scale kind params, program⟩ =>
    kind ∈ Kind.all ∧ Careful m kind (ScaleParams.schema.decodeLenient params) program
  | ⟨.store kind _, program⟩ => kind ∈ Kind.all ∧ Stores kind program

/-- The versions are in order, and every update fits. -/
structure Orderly (race : Race) : Prop where
  versions : race.memory.Versioned
  updates : ∀ u ∈ race.updates, Fits race.memory u

/-- Everything recalled in one cluster is recalled in another. -/
def Remembers (m m' : Memory) : Prop :=
  ∀ kind ∈ Kind.all, ∀ ns name seen, m.Recalls kind ns name seen → m'.Recalls kind ns name seen

theorem careful_of_none {m : Memory} {kind : Kind} {p : ScaleParams} {program : Program Response}
    (h : Scales kind p none program) : Careful m kind p program := by
  refine ⟨none, h, ?_⟩
  intro object hobject
  cases hobject

theorem careful_of_recalls {m : Memory} {kind : Kind} {p : ScaleParams} {object : Json}
    {program : Program Response} (h : Scales kind p (some object) program)
    (hobject : m.Recalls kind p.ns p.name object) : Careful m kind p program := by
  refine ⟨some object, h, ?_⟩
  intro other hother
  cases hother
  exact hobject

theorem fits_of_remembers {m m' : Memory} (h : Remembers m m') {u : Update} (hu : Fits m u) :
    Fits m' u := by
  obtain ⟨order, program⟩ := u
  cases order with
  | scale kind params =>
    obtain ⟨hkind, seen, hscales, hrecalls⟩ := hu
    refine ⟨hkind, seen, hscales, ?_⟩
    intro object hobject
    exact h kind hkind _ _ object (hrecalls object hobject)
  | store kind params => exact hu

theorem orderly_memory {race : Race} {memory : Memory} (h : Orderly race)
    (hversions : memory.Versioned) (hremembers : Remembers race.memory memory) :
    Orderly { race with memory } := by
  refine ⟨hversions, ?_⟩
  intro u hu
  exact fits_of_remembers hremembers (h.updates u hu)

theorem fits_begin (m : Memory) {order : Order} (hkind : order.kind ∈ Kind.all) :
    Fits m ⟨order, order.program⟩ := by
  cases order with
  | scale kind params => exact ⟨hkind, careful_of_none (scales_updateObj kind params)⟩
  | store kind params => exact ⟨hkind, stores_updateYaml kind params⟩

theorem orderly_set {race : Race} {memory : Memory} (h : Orderly race)
    (hversions : memory.Versioned) (hremembers : Remembers race.memory memory) {u : Update}
    (hu : Fits memory u) (i : Nat) : Orderly ⟨memory, race.updates.set i u⟩ := by
  refine ⟨hversions, ?_⟩
  intro v hv
  rcases List.mem_or_eq_of_mem_set hv with hold | hnew
  · exact fits_of_remembers hremembers (h.updates v hold)
  · exact hnew ▸ hu

theorem remembers_refl (m : Memory) : Remembers m m := by
  intro kind _ ns name seen h
  exact h

theorem remembers_replace {m : Memory} (hm : m.Versioned) {kind : Kind} (hkind : kind ∈ Kind.all)
    {object : Json} (htakes : object.takes versionPath = true)
    (hroom : m.overflows (.replace kind object) = false) :
    Remembers m (m.replace kind object).2 := by
  intro other hother ns name seen h
  exact Memory.recalls_replace hm hother hkind htakes hroom h

/-- After an object was read, the scale request that read it recalls it. -/
theorem recalls_of_get {m : Memory} (hm : m.Versioned) {kind : Kind} {ns name : String}
    {object : Json} (h : m.get kind ns name = .ok object) : m.Recalls kind ns name object := by
  unfold Memory.get at h
  split at h
  · rename_i found hfind
    cases h
    exact Memory.recalls_get hm hfind
  · cases h

theorem orderly_answer_scale {race : Race} (h : Orderly race) {i : Nat} {kind : Kind}
    {params : Json} {program : Program Response}
    (hu : Fits race.memory ⟨.scale kind params, program⟩) :
    Orderly (race.answer i ⟨.scale kind params, program⟩) := by
  obtain ⟨hkind, seen, hscales, hrecalls⟩ := hu
  unfold answer
  cases hscales with
  | done _ r => exact h
  | pause _ ms later =>
    refine orderly_set h h.versions (remembers_refl _) ?_ i
    exact ⟨hkind, careful_of_none later⟩
  | read _ failed found =>
    dsimp only
    split
    · exact h
    · refine orderly_set h h.versions (remembers_refl _) ?_ i
      refine ⟨hkind, ?_⟩
      dsimp only [Memory.call]
      cases hget : race.memory.get kind (ScaleParams.schema.decodeLenient params).ns
          (ScaleParams.schema.decodeLenient params).name with
      | error f => exact careful_of_none (failed f)
      | ok object =>
        have hobject := recalls_of_get h.versions hget
        exact careful_of_recalls (found object hobject.1) hobject
  | offer object later =>
    dsimp only
    split
    · exact h
    · rename_i hroom
      have hroom' : race.memory.overflows (.replace kind
          (rescaled kind (ScaleParams.schema.decodeLenient params).replicas object)) = false := by
        simpa using hroom
      have htakes : (rescaled kind (ScaleParams.schema.decodeLenient params).replicas object).takes
          versionPath = true := by
        rw [takes_rescaled]
        exact Memory.takes_of_recalls (hrecalls object rfl)
      refine orderly_set h (Memory.versioned_replace h.versions htakes hroom')
        (remembers_replace h.versions hkind htakes hroom') ?_ i
      exact ⟨hkind, careful_of_none (later _)⟩

theorem orderly_answer_store {race : Race} (h : Orderly race) {i : Nat} {kind : Kind}
    {params : Json} {program : Program Response}
    (hu : Fits race.memory ⟨.store kind params, program⟩) :
    Orderly (race.answer i ⟨.store kind params, program⟩) := by
  obtain ⟨hkind, hstores⟩ := hu
  unfold answer
  cases hstores with
  | done r => exact h
  | pause ms later =>
    refine orderly_set h h.versions (remembers_refl _) ?_ i
    exact ⟨hkind, later⟩
  | read ns name later =>
    dsimp only
    split
    · exact h
    · refine orderly_set h h.versions (remembers_refl _) ?_ i
      exact ⟨hkind, later _⟩
  | @offer object htakes _ later =>
    dsimp only
    split
    · exact h
    · rename_i hroom
      have hroom' : race.memory.overflows (.replace kind object) = false := by
        simpa using hroom
      refine orderly_set h (Memory.versioned_replace h.versions htakes hroom')
        (remembers_replace h.versions hkind htakes hroom') ?_ i
      exact ⟨hkind, later _⟩

theorem scales_none_of_isOver {kind : Kind} {p : ScaleParams} {seen : Option Json}
    {program : Program Response} (h : Scales kind p seen program)
    (hover : program.isOver = true) : Scales kind p none program := by
  cases h with
  | done _ r => exact Scales.done none r
  | read _ _ _ | pause _ _ _ | offer _ _ => cases hover

/-- After a deletion, whoever scales another object remembers it. -/
theorem fits_delete {race : Race} (h : Orderly race) {memory : Memory} {kind : Kind}
    (hkind : kind ∈ Kind.all) {ns name : String}
    (hdelete : race.memory.delete kind ns name = .ok memory) {u : Update} (hu : u ∈ race.updates)
    (hidle : u.scales kind ns name = false) : Fits memory u := by
  have hfits := h.updates u hu
  obtain ⟨order, program⟩ := u
  cases order with
  | store k params => exact hfits
  | scale k params =>
    obtain ⟨hown, seen, hscales, hrecalls⟩ := hfits
    refine ⟨hown, ?_⟩
    cases hover : program.isOver with
    | true => exact careful_of_none (scales_none_of_isOver hscales hover)
    | false =>
      have hne : ¬ SameTarget k (ScaleParams.schema.decodeLenient params).ns
          (ScaleParams.schema.decodeLenient params).name kind ns name := by
        intro hsame
        simp [Update.scales, hover, hsame] at hidle
      refine ⟨seen, hscales, ?_⟩
      intro object hobject
      apply Memory.recalls_of_find? _ (hrecalls object hobject)
      intro current hcurrent
      rw [Memory.find?_delete_of_ne hown hkind hdelete hne, hcurrent]

theorem orderly_step {race : Race} (h : Orderly race) (move : Move) :
    Orderly (race.step move) := by
  cases move with
  | begin order =>
    simp only [step]
    split
    · rename_i hkind
      refine ⟨h.versions, ?_⟩
      intro u hu
      rcases List.mem_append.mp hu with hold | hnew
      · exact h.updates u hold
      · rw [List.mem_singleton] at hnew
        subst hnew
        exact fits_begin _ hkind
    · exact h
  | answer i =>
    simp only [step]
    split
    · rename_i u hu
      have hfits := h.updates u (List.mem_of_getElem? hu)
      obtain ⟨order, program⟩ := u
      cases order with
      | scale kind params => exact orderly_answer_scale h hfits
      | store kind params => exact orderly_answer_store h hfits
    · exact h
  | insert kind ns name object =>
    simp only [step]
    split
    · rename_i hguard
      apply orderly_memory h (Memory.versioned_insert h.versions kind ns name hguard.2)
      intro other _ ns' name' seen hseen
      apply Memory.recalls_of_find? _ hseen
      intro current hcurrent
      exact Memory.find?_insert hcurrent object
    · exact h
  | replace kind object =>
    simp only [step]
    split
    · rename_i hguard
      obtain ⟨hkind, htakes, hroom⟩ := hguard
      exact orderly_memory h (Memory.versioned_replace h.versions htakes hroom)
        (remembers_replace h.versions hkind htakes hroom)
    · exact h
  | delete kind ns name =>
    simp only [step]
    split
    · rename_i hguard
      obtain ⟨hkind, hidle⟩ := hguard
      split
      · rename_i memory hdelete
        refine ⟨Memory.versioned_delete h.versions hdelete, ?_⟩
        intro u hu
        have hu' : u.scales kind ns name = false := by
          simpa using List.all_eq_true.mp hidle u hu
        exact fits_delete h hkind hdelete hu hu'
      · exact h
    · exact h
  | conflicts n =>
    simp only [step]
    refine orderly_memory h ?_ ?_
    · exact Memory.versioned_of_objects rfl h.versions
    intro kind _ ns name seen hseen
    exact Memory.recalls_of_find? (fun _ hcurrent => hcurrent) hseen

theorem orderly_run (moves : List Move) : Orderly (run moves) := by
  induction moves using List.reverseRecOn with
  | nil =>
    constructor
    · intro entry hentry
      cases hentry
    · intro u hu
      cases hu
  | append_singleton moves move ih =>
    unfold run
    rw [List.foldl_append]
    exact orderly_step ih move

/-! ### What a scale request stores -/

/-- One object took the place of another on behalf of a scale request: its version is the next
    one, its replica count is the one asked for if it has such a thing, and all the rest is as it
    was. -/
structure IsRescaling (kind : Kind) (replicas : Int) (before after : Json) : Prop where
  version : ∃ v, Memory.version before = toString v ∧ Memory.version after = toString (v + 1)
  count : kind.scales = true → hasScale before = true →
    after.at? replicasPath = some (.int replicas)
  rest : ∀ path, Json.Apart versionPath path →
    (kind.scales = true → hasScale before = true → Json.Apart replicasPath path) →
    after.at? path = before.at? path

theorem takes_replicasPath {object : Json} (hobject : object.isObject = true)
    (h : hasScale object = true) : object.takes replicasPath = true := by
  cases object with
  | object fields =>
    cases hspec : Json.find? "spec" fields with
    | none => simp [Json.takes, hspec]
    | some spec =>
      cases spec with
      | object inner => simp [Json.takes, hspec]
      | null | bool _ | number _ | string _ | array _ =>
        simp [hasScale, Json.at?, Json.field?, hspec] at h
  | null | bool _ | number _ | string _ | array _ => cases hobject

theorem isRescaling_nextVersion {kind : Kind} {replicas : Int} {before : Json} {v : Nat}
    (hobject : before.isObject = true) (htakes : before.takes versionPath = true)
    (hversion : Memory.version before = toString v) :
    IsRescaling kind replicas before (Memory.nextVersion v (rescaled kind replicas before)) := by
  have hroom : (rescaled kind replicas before).takes versionPath = true := by
    rw [takes_rescaled, htakes]
  constructor
  · exact ⟨v, hversion, Memory.version_nextVersion hroom v⟩
  · intro hscales hscale
    have hchanged : rescaled kind replicas before =
        before.putAt replicasPath (.int replicas) := by
      simp [rescaled, hscales, hscale]
    unfold Memory.nextVersion
    rw [Json.at?_putAt_of_apart (by decide), hchanged]
    exact Json.at?_putAt_self (takes_replicasPath hobject hscale) _
  · intro path hpath hreplicas
    unfold Memory.nextVersion
    rw [Json.at?_putAt_of_apart hpath]
    unfold rescaled
    split
    · rename_i hboth
      exact Json.at?_putAt_of_apart (hreplicas hboth.1 hboth.2) _ _
    · rfl

/-- An offer that was accepted replaced the very object that it was computed from. -/
theorem accepted_offer {m m' : Memory} (hm : m.Versioned) {kind : Kind} (hkind : kind ∈ Kind.all)
    {ns name : String} {replicas : Int} {seen stored : Json} (hseen : m.Recalls kind ns name seen)
    (hroom : m.overflows (.replace kind (rescaled kind replicas seen)) = false)
    (hreplace : m.replace kind (rescaled kind replicas seen) = (.ok stored, m')) :
    ∃ v, m.find? kind ns name = some seen ∧ Memory.version seen = toString v ∧
      stored = Memory.nextVersion v (rescaled kind replicas seen) ∧
      ∀ other ∈ Kind.all, ∀ ns' name', m'.find? other ns' name' =
        if SameTarget other ns' name' kind ns name then some stored
        else m.find? other ns' name' := by
  have htakes : (rescaled kind replicas seen).takes versionPath = true := by
    rw [takes_rescaled]
    exact Memory.takes_of_recalls hseen
  rcases m.replace_cases kind (rescaled kind replicas seen) with
    ⟨f, m'', hrefused, -⟩ | ⟨current, next, m'', haccepted, hfind, hfresh, hnext, hobjects, -⟩
  · rw [hreplace] at hrefused
    cases hrefused
  · rw [hreplace] at haccepted
    cases haccepted
    obtain ⟨v, -, hcurrent, -, rfl⟩ :=
      Memory.version_after hm htakes hroom hreplace hfind hnext
    obtain ⟨hisObject, found, u, w, hfound, hu, hw, -, hsame⟩ := hseen
    have htarget : SameTarget kind ns name kind
        (objectNamespace (rescaled kind replicas seen))
        (objectName (rescaled kind replicas seen)) := by
      apply Memory.sameTarget_of_isObject
      rw [isObject_rescaled, hisObject]
    have hstored : found = current := by
      rw [Memory.find?_of_sameTarget htarget, hfind] at hfound
      exact (Option.some.inj hfound).symm
    subst hstored
    have hwv : w = v := Memory.toString_injective (hw.symm.trans hcurrent)
    subst hwv
    -- The offer bears the version that was read, and that is the version stored.
    have huw : u = w := by
      rw [version_rescaled] at hfresh
      rcases hfresh with hblank | hequal
      · exact absurd (hu.symm.trans hblank) (Memory.toString_ne_blank u)
      · obtain ⟨n, hn, hnumber⟩ := Memory.find?_versioned hm hfind
        rw [hnumber, Memory.versionNumber_toString hn, ← hnumber, hw, hu] at hequal
        exact Memory.toString_injective hequal
    have hunchanged : found = seen := hsame huw
    subst hunchanged
    refine ⟨w, hfound, hcurrent, rfl, ?_⟩
    intro other hother ns' name'
    rw [Memory.find?_after hother hkind ns' name' hfind hobjects]
    simp only [Memory.sameTarget_congr htarget]

/-- Whatever a scale request stores is the object that was stored right before, rescaled; no other
    object changes. -/
theorem scale_loses_no_update (moves : List Move) (i : Nat) (u : Update) (kind : Kind)
    (params stored : Json) (hupdate : (run moves).updates[i]? = some u)
    (horder : u.order = .scale kind params)
    (hstored : ((run moves).step (.answer i)).memory.replaced =
      (run moves).memory.replaced ++ [stored]) :
    let p := ScaleParams.schema.decodeLenient params
    let now := (run moves).memory
    let next := ((run moves).step (.answer i)).memory
    ∃ before, now.find? kind p.ns p.name = some before ∧
      IsRescaling kind p.replicas before stored ∧
      ∀ other ∈ Kind.all, ∀ ns name, next.find? other ns name =
        if SameTarget other ns name kind p.ns p.name then some stored
        else now.find? other ns name := by
  have horderly := orderly_run moves
  generalize run moves = race at *
  obtain ⟨order, program⟩ := u
  cases horder
  obtain ⟨hkind, seen, hscales, hrecalls⟩ :=
    horderly.updates _ (List.mem_of_getElem? hupdate)
  simp only [step, hupdate, answer] at hstored ⊢
  cases hscales with
  | done _ r => simp at hstored
  | pause _ ms later => simp at hstored
  | read _ failed found =>
    dsimp only at hstored
    split at hstored
    · simp at hstored
    · simp [Memory.call] at hstored
  | offer seen later =>
    dsimp only at hstored ⊢
    split at hstored
    · simp at hstored
    · rename_i hroom
      have hroom' : race.memory.overflows (.replace kind
          (rescaled kind (ScaleParams.schema.decodeLenient params).replicas seen)) = false := by
        simpa using hroom
      have hseen := hrecalls seen rfl
      rw [if_neg hroom]
      dsimp only [Memory.call] at hstored ⊢
      rcases race.memory.replace_cases kind
          (rescaled kind (ScaleParams.schema.decodeLenient params).replicas seen) with
        ⟨f, memory, hrefused, -, hnothing⟩ | ⟨-, next, memory, haccepted, -, -, -, -, hone⟩
      · rw [hrefused] at hstored
        simp [hnothing] at hstored
      · rw [haccepted] at hstored ⊢
        have hnext : next = stored := by simpa [hone] using hstored
        subst hnext
        obtain ⟨v, hfind, hversion, hnew, hafter⟩ :=
          accepted_offer horderly.versions hkind hseen hroom' haccepted
        have hobject : seen.isObject = true :=
          Json.isObject_of_textAt_ne_blank (Memory.version_ne_blank_of_recalls hseen)
        refine ⟨seen, hfind, ?_, hafter⟩
        rw [hnew]
        exact isRescaling_nextVersion hobject (Memory.takes_of_recalls hseen) hversion

/-- A document is stored between the reading and the offer of a scale request. -/
def contested : List Move :=
  let deployment := Kind.all[4]
  let target := [("name", Json.string "web"), ("namespace", Json.string "prod")]
  [.insert deployment "prod" "web" (.object [("image", .string "a")]),
    .begin (.scale deployment (Json.ofFields (("replicas", .int 3) :: target))),
    .begin (.store deployment (Json.ofFields (("yaml", .string "image: b") :: target))),
    .answer 0, .answer 1, .answer 0, .answer 0, .answer 0]

theorem scale_loses_no_document :
    ∃ u before stored, (run contested).updates[0]? = some u ∧
      ((run contested).step (.answer 0)).memory.replaced =
        (run contested).memory.replaced ++ [stored] ∧
      (run contested).memory.find? Kind.all[4] "prod" "web" = some before ∧
      IsRescaling Kind.all[4] 3 before stored ∧ stored.at? ["image"] = some (.string "b") := by
  have horder : (run contested).updates[0]?.map (·.order) = some (.scale Kind.all[4]
      (Json.ofFields [("replicas", .int 3), ("name", .string "web"),
        ("namespace", .string "prod")])) := by
    decide +kernel
  have hparams : ScaleParams.schema.decodeLenient (Json.ofFields [("replicas", .int 3),
      ("name", .string "web"), ("namespace", .string "prod")]) = ⟨"web", "prod", 3⟩ := by
    decide +kernel
  have hlast : ((run contested).step (.answer 0)).memory.replaced =
      (run contested).memory.replaced ++
        [((run contested).step (.answer 0)).memory.replaced.getLastD .null] := by
    decide +kernel
  have himage : (((run contested).step (.answer 0)).memory.replaced.getLastD .null).at? ["image"] =
      some (.string "b") := by
    decide +kernel
  rw [Option.map_eq_some_iff] at horder
  obtain ⟨u, hu, horder⟩ := horder
  obtain ⟨before, hbefore, hrescaling, -⟩ :=
    scale_loses_no_update contested 0 u Kind.all[4] _ _ hu horder hlast
  rw [hparams] at hbefore hrescaling
  exact ⟨u, before, _, hu, hlast, hbefore, hrescaling, himage⟩

end Race
end ClusterAgent.Handler
