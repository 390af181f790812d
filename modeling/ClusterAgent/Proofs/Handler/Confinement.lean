/-
  ClusterAgent/Proofs/Handler/Confinement.lean
  ============================================
  **Which objects an update can reach.**

  A request is routed to the handler of one kind.  Reading, listing and deleting name
  that kind to the cluster tool, but a replacement is a document on the tool's standard
  input, and the tool goes by what the document says.  So what a document is stored as
  depends on the document alone: `updates_carry_their_document` says so for every text
  and every kind with updates, and `update_replaces_foreign_kind` runs one through an
  entry of another kind.
-/
import ClusterAgent.Cluster.Playback
import ClusterAgent.Handler.All
import ClusterAgent.Proofs.Agent.World
import ClusterAgent.Proofs.Handler.Outcome
import ClusterAgent.Proofs.Registration

namespace ClusterAgent.Handler

open Agent (World)
open Cluster (Call Exit Failure Invocation Kubectl Playback jsonArgs namespaceArgs objectName)

variable {α β : Type}

/-! ### What a program asks -/

namespace Program

/-- Whatever is replied, the program asks for nothing but what `Q` allows. -/
def Asks (Q : Act → Prop) : Program α → Prop
  | .done _ => True
  | .fail _ => True
  | .ask act next => Q act ∧ ∀ reply, (next reply).Asks Q

theorem Asks.bind {Q : Act → Prop} {p : Program α} {f : α → Program β} (hp : p.Asks Q)
    (hf : ∀ result, (f result).Asks Q) : (p.bind f).Asks Q := by
  induction p with
  | done result => exact hf result
  | fail panic => trivial
  | ask act next ih =>
    obtain ⟨hact, hnext⟩ := hp
    constructor
    · exact hact
    · intro reply
      exact ih reply (hnext reply)

theorem Asks.of_reaches {Q : Act → Prop} {p q : Program α} (hp : p.Asks Q) (h : p.Reaches q) :
    q.Asks Q := by
  induction h with
  | refl => exact hp
  | reply _ r ih => exact ih.2 r

end Program

/-! ### Whose handler a request gets -/

theorem lookup_registerKind {r : Registry Handler} {kind : Kind} {resource action : String}
    {handler : Handler} (h : (registerKind r kind).lookup resource action = some handler) :
    r.lookup resource action = some handler ∨
      ∃ a ∈ kind.actions, kind.resource = resource ∧ a.name = action ∧
        ofAction? kind a = some handler := by
  unfold registerKind at h
  generalize kind.actions = actions at h ⊢
  induction actions generalizing r with
  | nil => exact .inl h
  | cons a rest ih =>
    rcases ih h with hbefore | ⟨b, hb, hrest⟩
    · dsimp only at hbefore
      split at hbefore
      · rename_i own hown
        rw [Registry.lookup_register] at hbefore
        split at hbefore
        · rename_i hpair
          obtain ⟨hresource, haction⟩ := Prod.mk.inj hpair
          exact .inr ⟨a, by simp, hresource, haction, hown.trans hbefore⟩
        · exact .inl hbefore
      · exact .inl hbefore
    · exact .inr ⟨b, by simp [hb], hrest⟩

theorem lookup_foldl_registerKind {resource action : String} {handler : Handler}
    (kinds : List Kind) (r : Registry Handler)
    (h : (kinds.foldl registerKind r).lookup resource action = some handler) :
    r.lookup resource action = some handler ∨
      ∃ kind ∈ kinds, ∃ a ∈ kind.actions, kind.resource = resource ∧ a.name = action ∧
        ofAction? kind a = some handler := by
  induction kinds generalizing r with
  | nil => exact .inl h
  | cons kind rest ih =>
    rcases ih _ h with hbefore | ⟨k, hk, hrest⟩
    · rcases lookup_registerKind hbefore with hfound | hown
      · exact .inl hfound
      · exact .inr ⟨kind, by simp, hown⟩
    · exact .inr ⟨k, by simp [hk], hrest⟩

/-- Storing a document is an action of kinds alone: neither the watch gate nor the pod sessions
    register another handler under its name. -/
theorem updateYaml_of_lookup {resource : String} {handler : Handler}
    (h : all.lookup resource Action.updateYaml.name = some handler) :
    ∃ kind ∈ Kind.all, kind.resource = resource ∧ Action.updateYaml ∈ kind.actions ∧
      handler = updateYaml kind := by
  unfold all at h
  simp only [Registry.lookup_register, Action.name, Prod.mk.injEq, String.reduceEq, and_false,
    if_false] at h
  rcases lookup_foldl_registerKind Kind.all _ h with hempty | ⟨kind, hkind, a, ha, hresource, hname,
    hown⟩
  · rw [Registry.lookup_register] at hempty
    simp [Registry.lookup, Registry.empty] at hempty
  · cases a with
    | updateYaml => exact ⟨kind, hkind, hresource, ha, (Option.some.inj hown).symm⟩
    | list | get | delete | updateObj | exec | stdin | openLog | closeLog =>
      simp [Action.name] at hname

/-! ### What is offered -/

/-- The object is the document with these fields, its kind among them; only its metadata may
    differ. -/
def Carries (object : Json) (fields : List (String × Json)) : Prop :=
  ∀ key, key ≠ "metadata" → object.field? key = Json.find? key fields

theorem carries_offer (d : Document) (latest : Option Json) :
    Carries (d.offer latest) d.fields := by
  intro key hkey
  cases latest <;>
    simp [Document.offer, Document.withMetadata, Json.field?, Json.find?_insert_of_ne hkey]

theorem read_of_ofParams {kind : Kind} {p : YamlParams} {d : Document}
    (h : Document.ofParams kind p = .ok d) : Yaml.read p.yaml = .ok (.object d.fields) := by
  unfold Document.ofParams at h
  split at h
  · cases h
  · rename_i fields hread
    split at h
    · cases h
      exact hread
    · cases h
  · cases h

/-- What is asked of the cluster to store a document with these fields in the name of a kind. -/
def IsUpdate (kind : Kind) (ns : String) (fields : List (String × Json)) : Act → Prop
  | .cluster (.get k n _) => k = kind ∧ n = ns
  | .cluster (.replace k object) => k = kind ∧ Carries object fields
  | .pause _ => True
  | _ => False

theorem asks_replaceFrom (kind : Kind) (ns : String) (d : Document) (left : Nat)
    (latest : Option Json) :
    (replaceFrom kind ns d.offer left (d.offer latest)).Asks (IsUpdate kind ns d.fields) := by
  induction left generalizing latest with
  | zero =>
    unfold replaceFrom
    refine ⟨⟨rfl, carries_offer d latest⟩, ?_⟩
    intro reply
    cases reply with
    | ok stored => trivial
    | error f =>
      dsimp only
      split <;> trivial
  | succ left ih =>
    unfold replaceFrom
    refine ⟨⟨rfl, carries_offer d latest⟩, ?_⟩
    intro reply
    cases reply with
    | ok stored => trivial
    | error f =>
      dsimp only
      split
      · -- The next offer is made of the same document and of whatever was read.
        refine ⟨trivial, fun _ => ⟨⟨rfl, rfl⟩, ?_⟩⟩
        intro reply
        cases reply with
        | error f => trivial
        | ok found => exact ih (some found)
      · trivial

/-! ### What the tool is run with -/

/-- A run of the tool for a request to store a document with these fields: it stores an object that
    carries the document, or reads an object of the kind. -/
def IsUpdateRun (kind : Kind) (ns : String) (fields : List (String × Json)) (i : Invocation) :
    Prop :=
  (∃ object, Carries object fields ∧
    i = ⟨["replace", "-f", "-"] ++ jsonArgs, some object.bytes⟩) ∨
  ∃ name, i = ⟨["get", kind.plural, name] ++ namespaceArgs kind ns ++ jsonArgs, none⟩

theorem isUpdateRun_invocation {kind : Kind} {ns : String} {fields : List (String × Json)}
    {call : Call} (h : IsUpdate kind ns fields (.cluster call)) :
    IsUpdateRun kind ns fields call.invocation := by
  cases call with
  | get k n name =>
    obtain ⟨rfl, rfl⟩ := h
    exact .inr ⟨name, rfl⟩
  | replace k object =>
    obtain ⟨rfl, hcarries⟩ := h
    exact .inl ⟨object, hcarries, rfl⟩
  | list _ _ | delete _ _ _ => cases h

/-- A program stores a document under the name of a kind: it offers the document at once if it can
    be stored, and every run of the tool is one for that document. -/
structure StoresDocument (kind : Kind) (p : YamlParams) (program : Program Response) : Prop where
  offers : ∀ d, Document.ofParams kind p = .ok d →
    ∃ object, Carries object d.fields ∧
      ∃ next, program = .ask (.cluster (.replace kind object)) next
  runs : ∀ call next, program.Reaches (.ask (.cluster call) next) →
    ∃ fields, Yaml.read p.yaml = .ok (.object fields) ∧
      IsUpdateRun kind p.ns fields call.invocation

theorem storesDocument_updateYaml (kind : Kind) (params : Json) :
    StoresDocument kind (YamlParams.schema.decodeLenient params) (updateYaml kind params) := by
  unfold updateYaml
  dsimp only
  generalize YamlParams.schema.decodeLenient params = p
  cases hd : Document.ofParams kind p with
  | error fault =>
    constructor
    · intro d h
      cases hd.symm.trans h
    · intro call next hreaches
      -- A text that is no document is refused before anything is asked.
      have hnothing : (Program.done (Response.error .paramsError fault.message)).Asks
          (fun _ => False) := trivial
      exact (hnothing.of_reaches hreaches).1.elim
  | ok d =>
    constructor
    · intro d' h
      cases hd.symm.trans h
      refine ⟨d.offer none, carries_offer d none, ?_⟩
      unfold retryOnConflict replaceFrom
      exact ⟨_, rfl⟩
    · intro call next hreaches
      have hasks := (asks_replaceFrom kind p.ns d (conflictAttempts - 1) none).bind
        (f := fun result => Program.done (updateResponse result)) fun _ => trivial
      exact ⟨d.fields, read_of_ofParams hd, isUpdateRun_invocation (hasks.of_reaches hreaches).1⟩

/-- **An update stores what its document says it is.**  A request to store a document gets the
    handler of a kind that has updates, and that handler passes the document on, of whatever kind
    it is. -/
theorem updates_carry_their_document {resource : String} {handler : Handler}
    (h : all.lookup resource Action.updateYaml.name = some handler) (params : Json) :
    ∃ kind ∈ Kind.all, kind.resource = resource ∧ Action.updateYaml ∈ kind.actions ∧
      StoresDocument kind (YamlParams.schema.decodeLenient params) (handler params) := by
  obtain ⟨kind, hkind, hresource, haction, rfl⟩ := updateYaml_of_lookup h
  exact ⟨kind, hkind, hresource, haction, storesDocument_updateYaml kind params⟩

theorem updates_carry_their_document_of_pods :
    let params : Json := .object [("name", .string "web"), ("namespace", .string "prod"),
      ("yaml", .string "kind: Secret\nmetadata:\n  name: s\n")]
    ∃ handler, all.lookup "pod" Action.updateYaml.name = some handler ∧
      ∃ kind ∈ Kind.all, kind.resource = "pod" ∧ Action.updateYaml ∈ kind.actions ∧
        StoresDocument kind (YamlParams.schema.decodeLenient params) (handler params) := by
  intro params
  have hfound : (all.lookup "pod" Action.updateYaml.name).isSome = true := by decide +kernel
  obtain ⟨handler, hhandler⟩ := Option.isSome_iff_exists.mp hfound
  exact ⟨handler, hhandler, updates_carry_their_document hhandler params⟩

/-! ### A secret through the entry of pods -/

/-- A request to update a pod holds the document of a secret; the first attempt meets a conflict. -/
def secretUpdate : World Playback :=
  let frame := ("[\"pod\",\"update_yaml\",\"7\",\x7b\"name\":\"web\",\"namespace\":\"prod\"," ++
    "\"yaml\":\"kind: Secret\\nmetadata:\\n  name: s\\n\"\x7d]").toUTF8.toList
  let conflict : Exit := ⟨1, [], "Operation cannot be fulfilled: the object has been modified"⟩
  let stored : Exit := ⟨0, "\x7b\x7d".toUTF8.toList, ""⟩
  let client := (⟨none, none⟩ : Kubectl).client Playback.runner
  (World.start all client ⟨true, [conflict, stored, stored], []⟩ 9 0).run
    [.frame frame, .take, .run (.request 0) false, .run (.handler 0) false,
      .run (.handler 0) false, .tick, .run (.handler 0) false, .run (.handler 0) false,
      .run (.handler 0) false, .run (.request 0) false]

/-- Secrets have no updates, and yet a secret is replaced through the entry of pods; what is read
    between the two attempts is a pod. -/
theorem update_replaces_foreign_kind :
    (Kind.ofResource? "secret").map (·.actions) = some [.list, .get] ∧
      secretUpdate.taken.map (fun r => (r.resource, r.action)) = [("pod", "update_yaml")] ∧
      secretUpdate.agent.cluster.runs.map (·.args) =
        [["replace", "-f", "-", "-o", "json"], ["get", "pods", "s", "-n", "prod", "-o", "json"],
          ["replace", "-f", "-", "-o", "json"]] ∧
      (secretUpdate.agent.cluster.runs.filterMap (·.stdin)).map
          (fun bytes => (Json.read bytes).toOption.bind (·.field? "kind")) =
        [some (.string "Secret"), some (.string "Secret")] ∧
      secretUpdate.sent = [Envelope.response "7" Response.ok] := by
  decide +kernel

end ClusterAgent.Handler
