/-
  ClusterAgent/Proofs/Handler/Naming.lean
  =======================================
  **Which object a request is about.**

  A call that reads or deletes one object gives its name and its namespace, and the tool
  passes a namespace on only if it is not blank.  Without one it would work in whatever
  namespace its configuration names.  Reading an object and scaling one check what they
  are given.  Deleting does not, and neither does the read between two attempts to store
  a document; if their parameters are complete, then no call has a blank target either
  (`complete_requests_name_their_objects`), but nothing sees to that
  (`blank_namespace_reaches_the_tool`).
-/
import ClusterAgent.Proofs.Handler.Alone
import ClusterAgent.Proofs.Handler.Parameters
import ClusterAgent.Proofs.Handler.Scaling
import ClusterAgent.Proofs.Handler.Storing

namespace ClusterAgent.Handler

open Cluster (Call Exit Failure Kubectl Playback jsonArgs namespaceArgs objectName)

variable {α : Type} {resource action : String} {handler : Handler} {kind : Kind}
  {ns name : String} {act : Act} {partner : Partner} {past said : List Exchange}

/-- The question is about the object of that kind, namespace and name. -/
inductive IsAbout (kind : Kind) (ns name : String) : Act → Prop where
  | read : IsAbout kind ns name (.cluster (.get kind ns name))
  | delete : IsAbout kind ns name (.cluster (.delete kind ns name))

/-- An object of a namespaced kind is named with its namespace, and with its name if `P` holds. -/
def NamesObject (P : Prop) (act : Act) : Prop :=
  ∀ kind ns name, IsAbout kind ns name act → kind.namespaced = true → ns ≠ "" ∧ (P → name ≠ "")

theorem NamesObject.of_true {P : Prop} (h : NamesObject True act) : NamesObject P act := by
  intro kind ns name habout hkind
  obtain ⟨hns, hname⟩ := h kind ns name habout hkind
  exact ⟨hns, fun _ => hname trivial⟩

theorem namesObject_of_ne {P : Prop} (h : ∀ call, act ≠ .cluster call) : NamesObject P act := by
  intro kind ns name habout
  cases habout
  · exact absurd rfl (h _)
  · exact absurd rfl (h _)

/-- What a program asks for is what it says. -/
theorem asked_of_said {Q : Act → Prop} {p : Program α} (h : p.Asks Q) :
    ∀ e ∈ (p.converse partner past).1, Q e.act := by
  induction p generalizing past with
  | done result =>
    intro e he
    exact absurd he List.not_mem_nil
  | fail panic =>
    intro e he
    exact absurd he List.not_mem_nil
  | ask act next ih =>
    intro e he
    rcases List.mem_cons.mp he with rfl | he
    · exact h.1
    · exact ih _ (h.2 _) e he

/-! ### Trying again -/

section Replacing

variable {attempt left : Nat} {candidate : Json} {conflict : Failure} {e : Exchange}
  {build : Option Json → Json} {P : String → Prop} {k : Kind} {n nm : String}

/-- In a turn only the read after the pause is about one object, the one that was offered. -/
theorem about_of_turn {reply : Except Failure Json}
    (he : e ∈ conflictTurn kind ns attempt candidate conflict reply)
    (habout : IsAbout k n nm e.act) : k = kind ∧ n = ns ∧ nm = objectName candidate := by
  simp only [conflictTurn, List.mem_cons, List.not_mem_nil, or_false] at he
  rcases he with rfl | rfl | rfl
  · cases habout
  · cases habout
  · cases habout
    exact ⟨rfl, rfl, rfl⟩

/-- A replacement reads its own kind in the namespace that it was given; and if the objects that it
    offers have names as `P` says, then what it reads has such a name. -/
theorem about_of_replaceFrom
    (hsaid : ((replaceFrom kind ns build left candidate).converse partner past).1 = said)
    (hcandidate : P (objectName candidate))
    (hbuild : ∀ k n nm latest, Exchange.get k n nm (.ok latest) ∈ said →
      P (objectName (build (some latest))))
    (he : e ∈ said) (habout : IsAbout k n nm e.act) : k = kind ∧ n = ns ∧ P nm := by
  induction left using Nat.strong_induction_on generalizing candidate past said with
  | _ left ih =>
    rcases turn_cases kind ns build partner past left candidate with
      ⟨stored, htalk⟩ | ⟨failure, -, htalk⟩ | ⟨rest, conflict, failure, -, -, htalk⟩ |
      ⟨rest, conflict, latest, rfl, -, htalk⟩
    all_goals
      rw [htalk] at hsaid
      subst hsaid
    · rw [List.mem_singleton.mp he] at habout
      cases habout
    · rw [List.mem_singleton.mp he] at habout
      cases habout
    · obtain ⟨rfl, rfl, rfl⟩ := about_of_turn he habout
      exact ⟨rfl, rfl, hcandidate⟩
    · rcases List.mem_append.mp he with he | he
      · obtain ⟨rfl, rfl, rfl⟩ := about_of_turn he habout
        exact ⟨rfl, rfl, hcandidate⟩
      · -- The next offer is made of what was read in this turn.
        have hnext : P (objectName (build (some latest))) :=
          hbuild kind ns (objectName candidate) latest (by simp [conflictTurn])
        refine ih rest (Nat.lt_succ_self rest) rfl hnext ?_ he
        intro k n nm object hread
        exact hbuild k n nm object (List.mem_append_right _ hread)

end Replacing

/-! ### What is checked -/

theorem complete_of_checkTarget (h : checkTarget kind name ns = none) :
    name ≠ "" ∧ (kind.namespaced = true → ns ≠ "") := by
  unfold checkTarget at h
  split at h
  · cases h
  · rename_i hname
    split at h
    · cases h
    · rename_i hns
      exact ⟨hname, fun hkind hblank => hns ⟨hkind, hblank⟩⟩

theorem names_get (kind : Kind) (params : Json) : (get kind params).Asks (NamesObject True) := by
  unfold get
  dsimp only
  split
  · trivial
  · rename_i hcheck
    obtain ⟨hname, hns⟩ := complete_of_checkTarget hcheck
    constructor
    · intro k ns name habout hkind
      cases habout
      exact ⟨hns hkind, fun _ => hname⟩
    · intro reply
      cases reply <;> trivial

/-- Every object that was read bears a name, as the objects of a cluster do. -/
def ReadsNamed (said : List Exchange) : Prop :=
  ∀ kind ns name object, Exchange.get kind ns name (.ok object) ∈ said → objectName object ≠ ""

theorem objectName_scaled (kind : Kind) (replicas : Int) (first : Json) (latest : Option Json) :
    objectName (scaled kind replicas first latest) = objectName (latest.getD first) := by
  cases hobject : (latest.getD first).isObject with
  | true => rw [scaled_eq rfl hobject, objectName_rescaled]
  | false =>
    have hsame : scaled kind replicas first latest = latest.getD first := by
      unfold scaled
      dsimp only
      split
      · cases hlatest : latest.getD first with
        | object fields =>
          rw [hlatest] at hobject
          cases hobject
        | null | bool _ | number _ | string _ | array _ => rfl
      · rfl
    rw [hsame]

/-- A request to scale is refused, or it reads its object and goes on with what it has found. -/
theorem updateObj_cases (kind : Kind) (params : Json) :
    let p := ScaleParams.schema.decodeLenient params
    (∃ refusal, updateObj kind params = .done refusal) ∨
      checkTarget kind p.name p.ns = none ∧
        updateObj kind params = .ask (.cluster (.get kind p.ns p.name))
          fun (reply : Except Failure Json) =>
            match reply with
            | .error f => .done (UpdateFailure.reading f).response
            | .ok first => (retryOnConflict kind p.ns (scaled kind p.replicas first)).bind
                fun result => .done (updateResponse result) := by
  intro p
  unfold updateObj
  dsimp only
  cases hcheck : checkTarget kind p.name p.ns with
  | some refusal => exact .inl ⟨refusal, rfl⟩
  | none =>
    by_cases hreplicas : p.replicas < 1
    · exact .inl ⟨_, if_pos hreplicas⟩
    · exact .inr ⟨rfl, if_neg hreplicas⟩

/-- The read after a conflict is named by what was read before it. -/
theorem names_updateObj (kind : Kind) (params : Json) (partner : Partner) :
    let said := ((updateObj kind params).converse partner []).1
    ∀ e ∈ said, NamesObject (ReadsNamed said) e.act := by
  intro said
  have hsaid : said = ((updateObj kind params).converse partner []).1 := rfl
  rcases updateObj_cases kind params with ⟨refusal, hrefused⟩ | ⟨hcheck, hreads⟩
  · rw [hrefused] at hsaid
    rw [hsaid]
    intro e he
    exact absurd he List.not_mem_nil
  · obtain ⟨hname, hns⟩ := complete_of_checkTarget hcheck
    generalize ScaleParams.schema.decodeLenient params = p at *
    obtain ⟨reply, hget⟩ : ∃ reply : Except Failure Json,
        partner [] (.cluster (.get kind p.ns p.name)) = reply := ⟨_, rfl⟩
    rw [hreads, converse_get hget] at hsaid
    have hfirst : NamesObject (ReadsNamed said) (Exchange.get kind p.ns p.name reply).act := by
      intro k ns name habout hkind
      cases habout
      exact ⟨hns hkind, fun _ => hname⟩
    cases reply with
    | error f =>
      rw [hsaid] at hfirst ⊢
      intro e he
      rw [List.mem_singleton.mp he]
      exact hfirst
    | ok first =>
      dsimp only at hsaid
      rw [converse_map] at hsaid
      obtain ⟨later, hlater⟩ : ∃ later, ((retryOnConflict kind p.ns
          (scaled kind p.replicas first)).converse partner
            ([] ++ [Exchange.get kind p.ns p.name (.ok first)])).1 = later := ⟨_, rfl⟩
      have htalk : said = Exchange.get kind p.ns p.name (.ok first) :: later :=
        hsaid.trans (congrArg _ hlater)
      intro e he k ns name habout hkind
      rw [htalk] at he
      rcases List.mem_cons.mp he with rfl | he
      · exact hfirst k ns name habout hkind
      · -- What is offered bears the name of what was read, at first and after every conflict.
        have hread : ReadsNamed said → objectName (scaled kind p.replicas first none) ≠ "" := by
          intro hnamed
          rw [objectName_scaled]
          exact hnamed kind p.ns p.name first (htalk ▸ List.mem_cons_self)
        have hlatest : ∀ k ns name latest, Exchange.get k ns name (.ok latest) ∈ later →
            ReadsNamed said → objectName (scaled kind p.replicas first (some latest)) ≠ "" := by
          intro k ns name latest hlatest hnamed
          rw [objectName_scaled]
          exact hnamed k ns name latest (htalk ▸ List.mem_cons_of_mem _ hlatest)
        obtain ⟨rfl, rfl, hlast⟩ := about_of_replaceFrom
          (P := fun name => ReadsNamed said → name ≠ "") hlater hread hlatest he habout
        exact ⟨hns hkind, hlast⟩

/-! ### What is not checked -/

theorem names_deleteAll (kind : Kind) {targets : List DeleteTarget}
    (h : ∀ t ∈ targets, t.name ≠ "" ∧ t.ns ≠ "") :
    (deleteAll kind targets).Asks (NamesObject True) := by
  induction targets with
  | nil => trivial
  | cons t targets ih =>
    obtain ⟨⟨hname, hns⟩, hrest⟩ := List.forall_mem_cons.mp h
    constructor
    · intro k ns name habout _
      cases habout
      exact ⟨hns, fun _ => hname⟩
    · intro reply
      cases reply with
      | ok _ => exact ih hrest
      | error f => trivial

theorem Completes.objectName_eq {p : YamlParams} {document object : Json} {version : Option Json}
    (h : Completes kind p document version object) :
    objectName object = if objectName document = "" ∧ p.name ≠ "" then p.name
      else objectName document := by
  have hname : objectName object =
      ((object.at? ["metadata", "name"]).bind Json.text?).getD "" := rfl
  rw [hname, h.name]
  split <;> rfl

/-- The document has a name of its own, or the request gives one. -/
def YamlParams.IsNamed (p : YamlParams) : Prop :=
  p.name ≠ "" ∨ ∀ document, Yaml.read p.yaml = .ok document → objectName document ≠ ""

theorem objectName_offer_ne_blank {p : YamlParams} {d : Document}
    (hd : Document.ofParams kind p = .ok d) (h : p.IsNamed) (latest : Option Json) :
    objectName (d.offer latest) ≠ "" := by
  rw [(completes_offer hd latest).objectName_eq]
  split
  · rename_i hunnamed
    exact hunnamed.2
  · rename_i hown
    rcases h with hname | hname
    · exact fun hblank => hown ⟨hblank, hname⟩
    · exact hname _ (read_of_ofParams hd)

theorem names_updateYaml (kind : Kind) {params : Json} (partner : Partner)
    (hns : (YamlParams.schema.decodeLenient params).ns ≠ "")
    (hname : (YamlParams.schema.decodeLenient params).IsNamed) :
    ∀ e ∈ ((updateYaml kind params).converse partner []).1, NamesObject True e.act := by
  unfold updateYaml
  dsimp only
  generalize YamlParams.schema.decodeLenient params = p at *
  cases hd : Document.ofParams kind p with
  | error fault =>
    intro e he
    exact absurd he List.not_mem_nil
  | ok d =>
    dsimp only
    rw [converse_map]
    intro e he k ns name habout _
    have hoffer : ∀ latest, objectName (d.offer latest) ≠ "" := objectName_offer_ne_blank hd hname
    obtain ⟨-, rfl, hlast⟩ := about_of_replaceFrom (P := fun name => name ≠ "") rfl (hoffer none)
      (fun _ _ _ latest _ => hoffer (some latest)) he habout
    exact ⟨hns, fun _ => hlast⟩

/-! ### All requests -/

theorem names_session (h : handler ∈ [exec, stdin, openLog, closeLog]) (params : Json) :
    (handler params).Asks (NamesObject True) := by
  simp only [List.mem_cons, List.not_mem_nil, or_false] at h
  rcases h with rfl | rfl | rfl | rfl
  · unfold exec
    dsimp only
    split
    · trivial
    · exact ⟨namesObject_of_ne nofun, fun _ => trivial⟩
  · unfold stdin
    refine Program.Asks.bind ⟨namesObject_of_ne nofun, fun found => ?_⟩ fun _ => trivial
    cases found with
    | none => trivial
    | some shell =>
      dsimp only
      split
      · exact ⟨namesObject_of_ne nofun, fun _ => trivial⟩
      · refine ⟨namesObject_of_ne nofun, fun taken => ?_⟩
        cases taken
        · trivial
        · exact ⟨namesObject_of_ne nofun, fun _ => trivial⟩
  · unfold openLog
    dsimp only
    split
    · trivial
    · exact ⟨namesObject_of_ne nofun, fun _ => trivial⟩
  · exact ⟨namesObject_of_ne nofun, fun _ => trivial⟩

theorem names_setWatch (params : Json) : (setWatch params).Asks (NamesObject True) := by
  unfold setWatch
  split
  · exact ⟨namesObject_of_ne nofun, fun _ => trivial⟩
  · trivial

/-- What the parameters of the requests that are not checked have to give. -/
structure Complete (action : String) (params : Json) : Prop where
  targets : action = Action.delete.name →
    ∀ t ∈ (DeleteParams.schema.decodeLenient params).resources, t.name ≠ "" ∧ t.ns ≠ ""
  document : action = Action.updateYaml.name →
    (YamlParams.schema.decodeLenient params).ns ≠ "" ∧
      (YamlParams.schema.decodeLenient params).IsNamed

theorem names_action {a : Action} (hown : ofAction? kind a = some handler) {params : Json}
    (h : Complete a.name params) (partner : Partner) :
    let said := ((handler params).converse partner []).1
    ∀ e ∈ said, NamesObject (a = .updateObj → ReadsNamed said) e.act := by
  intro said e he
  cases a with
  | list =>
    cases hown
    have hasks : (list kind params).Asks (NamesObject True) := by
      constructor
      · intro k ns name habout
        cases habout
      · intro reply
        cases reply <;> trivial
    exact (asked_of_said hasks e he).of_true
  | get =>
    cases hown
    exact (asked_of_said (names_get kind params) e he).of_true
  | delete =>
    cases hown
    exact (asked_of_said (names_deleteAll kind (h.targets rfl)) e he).of_true
  | updateYaml =>
    cases hown
    obtain ⟨hns, hname⟩ := h.document rfl
    exact (names_updateYaml kind partner hns hname e he).of_true
  | updateObj =>
    cases hown
    intro k ns name habout hkind
    obtain ⟨hns, hlast⟩ := names_updateObj kind params partner e he k ns name habout hkind
    exact ⟨hns, fun hnamed => hlast (hnamed rfl)⟩
  | exec | stdin | openLog | closeLog => cases hown

/-- The tool is told the namespace if there is one to tell. -/
theorem args_of_about {call : Call} (h : IsAbout kind ns name (.cluster call))
    (hkind : kind.namespaced = true) (hns : ns ≠ "") :
    ∃ verb rest, call.invocation.args = [verb, kind.plural, name, "-n", ns] ++ rest := by
  cases h with
  | read =>
    refine ⟨"get", jsonArgs, ?_⟩
    simp [Call.invocation, Call.args, namespaceArgs, hkind, hns]
  | delete =>
    refine ⟨"delete", ["--wait=false"], ?_⟩
    simp [Call.invocation, Call.args, namespaceArgs, hkind, hns]

/-- **A request with complete parameters names its objects.**  Let the targets of a request to
    delete have names and namespaces, and let a request to store a document give a namespace and,
    if the document has none, a name; any other request may have any parameters.  Then whoever
    answers, every object of a namespaced kind that is read or deleted is given with its
    namespace, and the tool is told this namespace; it is given with its name too, provided, if the
    request is to scale, that the objects which are read bear names. -/
theorem complete_requests_name_their_objects
    (h : all.lookup resource action = some handler) {params : Json}
    (hcomplete : Complete action params) (partner : Partner) :
    let said := ((handler params).converse partner []).1
    ∀ e ∈ said, ∀ kind ns name, IsAbout kind ns name e.act → kind.namespaced = true →
      ns ≠ "" ∧ ((action = Action.updateObj.name → ReadsNamed said) → name ≠ "") ∧
      ∀ call, e.act = .cluster call →
        ∃ verb rest, call.invocation.args = [verb, kind.plural, name, "-n", ns] ++ rest := by
  intro said e he kind ns name habout hkind
  have hnames : NamesObject (action = Action.updateObj.name → ReadsNamed said) e.act := by
    rcases handler_of_lookup h with rfl | ⟨own, -, a, -, -, rfl, hown⟩ | hsession
    · exact (asked_of_said (names_setWatch params) e he).of_true
    · intro k ns name habout hkind
      obtain ⟨hns, hname⟩ := names_action hown hcomplete partner e he k ns name habout hkind
      exact ⟨hns, fun hnamed => hname fun ha => hnamed (congrArg Action.name ha)⟩
    · exact (asked_of_said (names_session hsession params) e he).of_true
  obtain ⟨hns, hname⟩ := hnames kind ns name habout hkind
  refine ⟨hns, hname, fun call hcall => ?_⟩
  rw [hcall] at habout
  exact args_of_about habout hkind hns

/-- After a conflict the config map is read in the namespace of the request. -/
theorem complete_requests_name_their_objects_of_config_map :
    let kind := Kind.all[9]
    let params := shopParams "shop" "data:\n  mode: fast\n"
    kind.namespaced = true ∧ Complete "update_yaml" params ∧
      ∃ storer, all.lookup "configMap" "update_yaml" = some storer ∧
        ∃ e ∈ ((storer params).converse (overMemory shopMemory) []).1,
          e.act = .cluster (.get kind "shop" "cfg") ∧
          ∃ verb rest, (Call.get kind "shop" "cfg").invocation.args =
            [verb, kind.plural, "cfg", "-n", "shop"] ++ rest := by
  intro kind params
  have hcomplete : Complete Action.updateYaml.name params := by
    constructor
    · intro h
      simp [Action.name] at h
    · intro _
      exact ⟨by decide +kernel, .inl (by decide +kernel)⟩
  have hlookup : all.lookup kind.resource Action.updateYaml.name = some (updateYaml kind) :=
    lookup_all (by decide +kernel) (by decide +kernel) rfl
  have hread : .cluster (.get kind "shop" "cfg") ∈
      ((updateYaml kind params).converse (overMemory shopMemory) []).1.map Exchange.act := by
    decide +kernel
  obtain ⟨e, he, hact⟩ := List.mem_map.mp hread
  obtain ⟨-, -, hargs⟩ := complete_requests_name_their_objects hlookup hcomplete
    (overMemory shopMemory) e he kind "shop" "cfg" (hact ▸ .read) rfl
  exact ⟨rfl, hcomplete, updateYaml kind, hlookup, e, he, hact, hargs _ hact⟩

/-- A pod without a namespace is deleted wherever the tool looks for it, and a config map is read
    there after a conflict, although its document gives a namespace. -/
theorem blank_namespace_reaches_the_tool :
    let pod := Kind.all[0]
    let configMap := Kind.all[9]
    let client := (⟨none, none⟩ : Kubectl).client Playback.runner
    let done : Exit := ⟨0, "\x7b\x7d".toUTF8.toList, ""⟩
    let conflict : Exit := ⟨1, [], "Operation cannot be fulfilled: the object has been modified"⟩
    let removal : Json := .object [("resources", .array [.object [("name", .string "web")]])]
    let storage := shopParams "" "metadata:\n  name: cfg\n  namespace: shop\n"
    (pod.namespaced = true ∧ configMap.namespaced = true) ∧
      (∃ deleter, all.lookup "pod" "delete" = some deleter ∧
        ((deleter removal).alone client ⟨true, [done], []⟩).map (·.2.runs.map (·.args)) =
          some [["delete", "pods", "web", "--wait=false"]]) ∧
      ∃ storer, all.lookup "configMap" "update_yaml" = some storer ∧
        ((storer storage).alone client ⟨true, [conflict, done, done], []⟩).map
            (·.2.runs.map (·.args)) =
          some [["replace", "-f", "-", "-o", "json"], ["get", "configmaps", "cfg", "-o", "json"],
            ["replace", "-f", "-", "-o", "json"]] := by
  intro pod configMap client done conflict removal storage
  have hdelete : all.lookup pod.resource Action.delete.name = some (delete pod) :=
    lookup_all (by decide +kernel) (by decide +kernel) rfl
  have hstore : all.lookup configMap.resource Action.updateYaml.name =
      some (updateYaml configMap) :=
    lookup_all (by decide +kernel) (by decide +kernel) rfl
  exact ⟨⟨rfl, rfl⟩, ⟨delete pod, hdelete, by decide +kernel⟩,
    updateYaml configMap, hstore, by decide +kernel⟩

end ClusterAgent.Handler
