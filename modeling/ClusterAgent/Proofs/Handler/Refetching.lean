/-
  ClusterAgent/Proofs/Handler/Refetching.lean
  ===========================================
  **Reading again what was not replaced.**

  After a conflict an update reads the object anew, to take over its version.  It asks for
  the name that the offered object bears, but in the namespace that the request gives.
  Where the document is silent about its namespace or gives that very one, the object
  read is the one to be replaced (`rereads_what_it_replaces`).  A document of another
  namespace is offered there and read here, and so the update of an object that is there
  fails for want of it (`conflict_reads_elsewhere`).
-/
import ClusterAgent.Proofs.Cluster.Versions
import ClusterAgent.Proofs.Handler.Confinement
import ClusterAgent.Proofs.Handler.Retrying

namespace ClusterAgent.Handler

open Cluster (Call Failure Memory objectName objectNamespace versionPath)
open Cluster.Memory (SameTarget)

variable {kind : Kind} {p : YamlParams} {d : Document} {partner : Partner}

/-! ### Where a document belongs -/

/-- The document is silent about a namespace or gives the one of the request. -/
def YamlParams.Agrees (p : YamlParams) : Prop :=
  ∀ document value, Yaml.read p.yaml = .ok document →
    document.at? ["metadata", "namespace"] = some value → value.text?.getD "" = p.ns

theorem metadata_of_ofParams (h : Document.ofParams kind p = .ok d) :
    ∃ metadata, metadata? d.fields = some metadata ∧
      d.metadata = completeNamespace kind p.ns (completeName p.name metadata) := by
  unfold Document.ofParams at h
  split at h
  · cases h
  · split at h
    · rename_i metadata hmetadata
      cases h
      exact ⟨metadata, hmetadata, rfl⟩
    · cases h
  · cases h

theorem namespace_of_metadata? {fields metadata : List (String × Json)} {value : Json}
    (h : metadata? fields = some metadata) (hvalue : Json.find? "namespace" metadata = some value) :
    (Json.object fields).at? ["metadata", "namespace"] = some value := by
  unfold metadata? at h
  split at h
  · cases h
    cases hvalue
  · rename_i own hown
    cases h
    simp [Json.at?, Json.field?, hown, hvalue]
  · cases h

theorem find?_completeName_of_ne {key : String} (hkey : key ≠ "name") (name : String)
    (metadata : List (String × Json)) :
    Json.find? key (completeName name metadata) = Json.find? key metadata := by
  simp only [completeName]
  split
  · exact Json.find?_insert_of_ne hkey _ _
  · rfl

theorem objectName_offer (d : Document) (latest : Option Json) :
    objectName (d.offer latest) =
      ((Json.find? "name" d.metadata).bind Json.text?).getD "" := by
  rcases latest with _ | latest
  all_goals
    simp [Document.offer, Document.withMetadata, objectName, Json.textAt, Json.at?, Json.field?,
      Json.find?_insert_of_ne]

theorem objectNamespace_offer (d : Document) (latest : Option Json) :
    objectNamespace (d.offer latest) =
      ((Json.find? "namespace" d.metadata).bind Json.text?).getD "" := by
  rcases latest with _ | latest
  all_goals
    simp [Document.offer, Document.withMetadata, objectNamespace, Json.textAt, Json.at?, Json.field?,
      Json.find?_insert_of_ne]

theorem version_offer (d : Document) (latest : Json) :
    (d.offer (some latest)).at? versionPath = some ((latest.at? versionPath).getD .null) := by
  simp [Document.offer, Document.withMetadata, Json.at?, Json.field?]

/-- A document that agrees with the request is offered in the namespace of the request. -/
theorem objectNamespace_of_agrees (hd : Document.ofParams kind p = .ok d) (hagrees : p.Agrees)
    (hkind : kind.namespaced = true) (latest : Option Json) :
    objectNamespace (d.offer latest) = p.ns := by
  obtain ⟨metadata, hmetadata, hcomplete⟩ := metadata_of_ofParams hd
  rw [objectNamespace_offer, hcomplete]
  cases hown : Json.find? "namespace" metadata with
  | some value =>
    have hgiven := hagrees _ value (read_of_ofParams hd) (namespace_of_metadata? hmetadata hown)
    simpa [completeNamespace, find?_completeName_of_ne, hown] using hgiven
  | none =>
    by_cases hblank : p.ns = ""
    · simp [completeNamespace, find?_completeName_of_ne, hown, hblank]
    · simp [completeNamespace, find?_completeName_of_ne, hown, hkind, hblank, Json.text?]

/-- What is asked for after a conflict is the object that was offered. -/
theorem sameTarget_offer (hd : Document.ofParams kind p = .ok d)
    (hagrees : kind.namespaced = true → p.Agrees) (offered : Option Json) (latest : Option Json) :
    SameTarget kind p.ns (objectName (d.offer offered)) kind (objectNamespace (d.offer latest))
      (objectName (d.offer latest)) := by
  refine ⟨rfl, ?_, ?_⟩
  · rw [objectName_offer, objectName_offer]
  · intro hkind
    exact (objectNamespace_of_agrees hd (hagrees hkind) hkind latest).symm

/-! ### What is said -/

theorem converse_updateYaml (kind : Kind) (params : Json) (partner : Partner) :
    let p := YamlParams.schema.decodeLenient params
    (∃ fault, Document.ofParams kind p = .error fault ∧
      (updateYaml kind params).converse partner [] =
        ([], .ok (Response.error .paramsError fault.message))) ∨
    ∃ d said result, Document.ofParams kind p = .ok d ∧
      (updateYaml kind params).converse partner [] = (said, .ok (updateResponse result)) ∧
      Retried kind p.ns d.offer [] said result := by
  intro p
  unfold updateYaml
  cases hd : Document.ofParams kind p with
  | error fault => exact .inl ⟨fault, rfl, by simp only [p, hd]; rfl⟩
  | ok d =>
    obtain ⟨said, result, htalk, hretried⟩ := converse_retryOnConflict kind p.ns d.offer partner
    refine .inr ⟨d, said, result, rfl, ?_, hretried⟩
    simp only [p, hd]
    rw [converse_map, htalk]
    rfl

/-- The offer of an object has just met a conflict. -/
def Refused (kind : Kind) (object : Json) (past : List Exchange) : Prop :=
  ∃ before conflict ms, conflict.isConflict = true ∧
    past = before ++ [.replace kind object (.error conflict), .pause ms]

/-- Whatever the cluster is asked, the reply is the one of the objects in memory, which may have
    been changed by others meanwhile. -/
def Partner.Remembers (partner : Partner) (memory : List Exchange → Memory) : Prop :=
  ∀ past call, partner past (.cluster call) = ((memory past).call call).1

/-- An update that reads, after each conflict, the object that it is about to replace. -/
structure Rereads (kind : Kind) (partner : Partner) (said : List Exchange) (response : Response) :
    Prop where
  target : ∀ before kind' ns name reply after,
    said = before ++ .get kind' ns name reply :: after →
      ∃ object, Refused kind object before ∧
        SameTarget kind' ns name kind (objectNamespace object) (objectName object)
  /-- The next offer is of that object too, with the version of what was read. -/
  version : ∀ before e kind' object reply after,
    said = before ++ e :: .replace kind' object reply :: after →
      ∃ ns name latest, e = .get kind ns name (.ok latest) ∧
        SameTarget kind ns name kind' (objectNamespace object) (objectName object) ∧
        object.at? versionPath = some ((latest.at? versionPath).getD .null)
  /-- If the update fails for want of the object, then the object is not there. -/
  missing : ∀ memory, partner.Remembers memory → response.code = .getError →
    ∃ past object, Refused kind object past ∧
      (memory past).find? kind (objectNamespace object) (objectName object) = none

theorem Retried.target {ns : String} {build : Option Json → Json} {said : List Exchange}
    {result : Except UpdateFailure Json} (h : Retried kind ns build [] said result)
    {before after : List Exchange} {kind' : Kind} {ns' name : String} {reply : Except Failure Json}
    (hsaid : said = before ++ .get kind' ns' name reply :: after) :
    kind' = kind ∧ ns' = ns ∧ ∃ latest, name = objectName (build latest) ∧
      Refused kind (build latest) before := by
  obtain ⟨rfl, rfl, earlier, object, conflict, ms, rfl, rfl⟩ := (h.lawful hsaid).follows.get_cases
  -- The pause comes after a conflict, and the offer before it was made by `build`.
  have hpause : said = (earlier ++ [.replace kind' object (.error conflict)]) ++
      .pause ms :: (.get kind' ns' (objectName object) reply :: after) := by simp [hsaid]
  have hoffer : said = earlier ++ .replace kind' object (.error conflict) ::
      (.pause ms :: .get kind' ns' (objectName object) reply :: after) := by simp [hsaid]
  have hconflict : conflict.isConflict = true := by
    rcases (h.lawful hpause).follows.goesOn with ⟨object', conflict', heq, hconflict⟩ |
      ⟨ms', heq⟩ | ⟨name', latest, heq⟩
    · cases heq
      exact hconflict
    · cases heq
    · cases heq
  refine ⟨rfl, rfl, ?_⟩
  rcases (h.lawful hoffer).follows.replace_cases with ⟨-, ⟨-, rfl⟩ | ⟨_, _, latest, -, rfl⟩⟩
  · exact ⟨none, rfl, earlier, conflict, ms, hconflict, rfl⟩
  · exact ⟨some latest, rfl, earlier, conflict, ms, hconflict, rfl⟩

theorem Ends.read_of_getError {ns : String} {said : List Exchange}
    {result : Except UpdateFailure Json} (h : Ends kind ns said result)
    (hcode : (updateResponse result).code = .getError) :
    ∃ before name failure, said = before ++ [.get kind ns name (.error failure)] := by
  cases h with
  | accepted before object stored => cases hcode
  | refused before object failure hlast => cases hcode
  | unread before name failure => exact ⟨before, name, failure, rfl⟩

theorem find?_of_get_error {m : Memory} {ns name : String} {failure : Failure}
    (h : m.get kind ns name = .error failure) : m.find? kind ns name = none := by
  unfold Memory.get at h
  split at h
  · cases h
  · assumption

/-- **What is read after a conflict is what is to be replaced.**  Let the document of an update be
    silent about its namespace or give the one of the request.  Then whoever answers the update,
    every read is of the object that has just met a conflict, and the next offer is of that
    object too and takes its version from the read; over a cluster in memory the update of an
    object that is there does not fail for want of it. -/
theorem rereads_what_it_replaces (kind : Kind) (params : Json)
    (h : kind.namespaced = true → (YamlParams.schema.decodeLenient params).Agrees)
    (partner : Partner) :
    ∃ said response, (updateYaml kind params).converse partner [] = (said, .ok response) ∧
      Rereads kind partner said response := by
  rcases converse_updateYaml kind params partner with ⟨fault, -, htalk⟩ |
    ⟨d, said, result, hd, htalk, hretried⟩
  · refine ⟨[], _, htalk, ?_, ?_, ?_⟩
    · intro before kind' ns name reply after hsaid
      simp at hsaid
    · intro before e kind' object reply after hsaid
      simp at hsaid
    · intro memory hmemory hcode
      cases hcode
  · have htarget : ∀ before kind' ns name reply after,
        said = before ++ .get kind' ns name reply :: after →
          ∃ object, Refused kind object before ∧
            SameTarget kind' ns name kind (objectNamespace object) (objectName object) := by
      intro before kind' ns name reply after hsaid
      obtain ⟨rfl, rfl, latest, rfl, hrefused⟩ := hretried.target hsaid
      exact ⟨d.offer latest, hrefused, sameTarget_offer hd h latest latest⟩
    refine ⟨said, updateResponse result, htalk, htarget, ?_, ?_⟩
    · intro before e kind' object reply after hsaid
      have hoffer : said = (before ++ [e]) ++ .replace kind' object reply :: after := by
        simp [hsaid]
      obtain ⟨rfl, ⟨hfirst, -⟩ | ⟨earlier, name, latest, hbefore, rfl⟩⟩ :=
        (hretried.lawful hoffer).follows.replace_cases
      · simp at hfirst
      · obtain ⟨rfl, heq⟩ := List.append_inj' hbefore rfl
        obtain rfl := List.singleton_inj.mp heq
        obtain ⟨-, -, offered, rfl, -⟩ := hretried.target hsaid
        exact ⟨_, _, latest, rfl, sameTarget_offer hd h offered (some latest),
          version_offer d latest⟩
    · intro memory hmemory hcode
      obtain ⟨before, name, failure, hsaid⟩ := hretried.ends.read_of_getError hcode
      rw [List.nil_append] at hsaid
      obtain ⟨object, hrefused, hsame⟩ := htarget _ _ _ _ _ _ hsaid
      have hreplies := each_reply partner (updateYaml kind params) []
      rw [htalk, hsaid] at hreplies
      have hreply : Except.error failure = _ := hreplies.of_append.trans (hmemory before _)
      refine ⟨before, object, hrefused, ?_⟩
      rw [← Memory.find?_of_sameTarget hsame]
      exact find?_of_get_error hreply.symm

/-! ### An update over a cluster in memory -/

/-- The objects in memory after all that was asked of them. -/
def memoryAfter (m : Memory) (past : List Exchange) : Memory :=
  past.foldl (fun m e =>
    match e.act with
    | .cluster call => (m.call call).2
    | _ => m) m

/-- A cluster in memory that nobody else uses.  It has no sessions. -/
def overMemory (m : Memory) : Partner := fun past act =>
  match act with
  | .cluster call => ((memoryAfter m past).call call).1
  | .pause _ => ()
  | .setGate _ => ()
  | .openShell .. => ()
  | .findShell _ => none
  | .sendResize .. => false
  | .sendInput .. => false
  | .openLog .. => ()
  | .cancelLog _ => false

theorem remembers_overMemory (m : Memory) : (overMemory m).Remembers (memoryAfter m) :=
  fun _ _ => rfl

/-- A config map in the namespace `shop`; the next replacement meets a conflict. -/
def shopMemory : Memory :=
  let content : Json := .object [("data", .object [("mode", .string "slow")])]
  { Memory.empty.insert Kind.all[9] "shop" "cfg" content with conflicts := 1 }

def shopParams (ns yaml : String) : Json :=
  .object [("name", .string "cfg"), ("namespace", .string ns), ("yaml", .string yaml)]

/-- A document that is silent about its namespace is read again where it was offered. -/
theorem rereads_what_it_replaces_of_config_map :
    let kind := Kind.all[9]
    let params := shopParams "shop" "data:\n  mode: fast\n"
    (kind.namespaced = true ∧ (YamlParams.schema.decodeLenient params).Agrees) ∧
      (overMemory shopMemory).Remembers (memoryAfter shopMemory) ∧ ∃ said response,
        (updateYaml kind params).converse (overMemory shopMemory) [] = (said, .ok response) ∧
          response = Response.ok ∧ offerCount said = 2 ∧ readCount said = 1 ∧
          Rereads kind (overMemory shopMemory) said response := by
  intro kind params
  have hagrees : (YamlParams.schema.decodeLenient params).Agrees := by
    intro document value hread hvalue
    have hsilent : Yaml.read (YamlParams.schema.decodeLenient params).yaml =
        .ok (.object [("data", .object [("mode", .string "fast")])]) := by decide +kernel
    cases hsilent.symm.trans hread
    cases hvalue
  obtain ⟨said, response, htalk, hrereads⟩ :=
    rereads_what_it_replaces kind params (fun _ => hagrees) (overMemory shopMemory)
  have hresult : ((updateYaml kind params).converse (overMemory shopMemory) []).2.toOption =
      some Response.ok := by decide +kernel
  have hcounts : offerCount ((updateYaml kind params).converse (overMemory shopMemory) []).1 = 2 ∧
      readCount ((updateYaml kind params).converse (overMemory shopMemory) []).1 = 1 := by
    decide +kernel
  rw [htalk] at hresult hcounts
  exact ⟨⟨rfl, hagrees⟩, remembers_overMemory shopMemory, said, response, htalk,
    Option.some.inj hresult, hcounts.1, hcounts.2, hrereads⟩

/-- A document of the namespace `shop` is offered there, and after the conflict the object is
    looked for in the namespace of the request. -/
theorem conflict_reads_elsewhere :
    let kind := Kind.all[9]
    let params := shopParams "lab" "metadata:\n  name: cfg\n  namespace: shop\n"
    let talk := (updateYaml kind params).converse (overMemory shopMemory) []
    let object : Json := .object [("metadata", .object [("name", .string "cfg"),
      ("namespace", .string "shop")])]
    kind.namespaced = true ∧ objectNamespace object = "shop" ∧
      (shopMemory.find? kind "shop" "cfg").isSome = true ∧
      talk.1.map Exchange.act = [.cluster (.replace kind object), .pause 10,
        .cluster (.get kind "lab" "cfg")] ∧
      talk.2.toOption = some (Response.error .getError "configmaps \"cfg\" not found") := by
  decide +kernel

end ClusterAgent.Handler
