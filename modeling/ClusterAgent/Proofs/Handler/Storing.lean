/-
  ClusterAgent/Proofs/Handler/Storing.lean
  ========================================
  **What an update writes.**

  The document of an update comes as a text.  It is offered as it stands, but for three
  things: a name and a namespace that it lacks are taken from the request, and after a
  conflict its version gives way to that of the object that was just read.  `Completes`
  describes the object meant by this, field by field, and leaves no choice
  (`Completes.unique`).  Every offer of an update is that object
  (`updates_store_their_document`); a text that is no such document is refused before
  anything is asked.
-/
import ClusterAgent.Proofs.Handler.Refetching
import ClusterAgent.Proofs.Yaml.Values

namespace ClusterAgent.Handler

open Cluster (Failure objectName versionPath)

variable {kind : Kind} {p : YamlParams} {d : Document} {document object : Json}
  {fields metadata : List (String × Json)} {key : String} {version : Option Json}

/-! ### The object that a document stands for -/

/-- A mapping whose metadata, if it has any, is a mapping too. -/
def IsStorable (document : Json) : Prop :=
  document.isObject = true ∧
    ∀ metadata, document.field? "metadata" = some metadata → metadata.isObject = true

/-- The object is the document, completed by what the request gives and with the version in place
    of its own, if there is one. -/
structure Completes (kind : Kind) (p : YamlParams) (document : Json) (version : Option Json)
    (object : Json) : Prop where
  /-- Metadata is there even if the document has none. -/
  shape : ∃ fields metadata, object = .object fields ∧ Json.Sorted fields ∧
    Json.find? "metadata" fields = some (.object metadata) ∧ Json.Sorted metadata
  fields : ∀ key, key ≠ "metadata" → object.field? key = document.field? key
  /-- The document counts as unnamed if its name is missing, blank or no text. -/
  name : object.at? ["metadata", "name"] =
    if objectName document = "" ∧ p.name ≠ "" then some (.string p.name)
    else document.at? ["metadata", "name"]
  ns : object.at? ["metadata", "namespace"] =
    if kind.namespaced ∧ document.at? ["metadata", "namespace"] = none ∧ p.ns ≠ "" then
      some (.string p.ns)
    else document.at? ["metadata", "namespace"]
  version : object.at? versionPath = version.or (document.at? versionPath)
  others : ∀ key, key ∉ ["name", "namespace", "resourceVersion"] →
    object.at? ["metadata", key] = document.at? ["metadata", key]

theorem at?_metadata (h : Json.find? "metadata" fields = some (.object metadata)) (key : String) :
    (Json.object fields).at? ["metadata", key] = Json.find? key metadata := by
  simp [Json.at?, Json.field?, h]

/-- There is only one such object: its fields and those of its metadata are in order, and what
    stands under each key is given. -/
theorem Completes.unique {other : Json} (h : Completes kind p document version object)
    (h' : Completes kind p document version other) : other = object := by
  obtain ⟨fields, metadata, rfl, hfields, hmetadata, hsorted⟩ := h.shape
  obtain ⟨fields', metadata', rfl, hfields', hmetadata', hsorted'⟩ := h'.shape
  have hinner : metadata' = metadata := by
    refine Json.eq_of_find? hsorted' hsorted fun key => ?_
    rw [← at?_metadata hmetadata', ← at?_metadata hmetadata]
    by_cases hname : key = "name"
    · rw [hname, h'.name, h.name]
    by_cases hns : key = "namespace"
    · rw [hns, h'.ns, h.ns]
    by_cases hversion : key = "resourceVersion"
    · rw [hversion]
      exact h'.version.trans h.version.symm
    have hother : key ∉ ["name", "namespace", "resourceVersion"] := by simp [hname, hns, hversion]
    rw [h'.others key hother, h.others key hother]
  congr 1
  refine Json.eq_of_find? hfields' hfields fun key => ?_
  by_cases hkey : key = "metadata"
  · rw [hkey, hmetadata', hmetadata, hinner]
  · exact (h'.fields key hkey).trans (h.fields key hkey).symm

/-! ### The metadata of an offer -/

/-- The metadata that is offered with a version. -/
def Document.metadataWith (d : Document) (version : Option Json) : List (String × Json) :=
  match version with
  | none => d.metadata
  | some version => Json.insert "resourceVersion" version d.metadata

/-- The version that the next offer takes over from an object, null if that has none. -/
def versionOf (latest : Json) : Json :=
  (latest.at? versionPath).getD .null

theorem offer_eq (d : Document) (latest : Option Json) :
    d.offer latest = d.withMetadata (d.metadataWith (latest.map versionOf)) := by
  cases latest <;> rfl

theorem find?_metadataWith_of_ne (h : key ≠ "resourceVersion") (d : Document)
    (version : Option Json) :
    Json.find? key (d.metadataWith version) = Json.find? key d.metadata := by
  cases version with
  | none => rfl
  | some version => exact Json.find?_insert_of_ne h _ _

theorem find?_version_metadataWith (d : Document) (version : Option Json) :
    Json.find? "resourceVersion" (d.metadataWith version) =
      version.or (Json.find? "resourceVersion" d.metadata) := by
  cases version with
  | none => rfl
  | some version => exact Json.find?_insert_self _ _ _

theorem find?_name_completeName (name : String) (metadata : List (String × Json)) :
    Json.find? "name" (completeName name metadata) =
      if ((Json.find? "name" metadata).bind Json.text?).getD "" = "" ∧ name ≠ "" then
        some (.string name)
      else Json.find? "name" metadata := by
  simp only [completeName]
  split
  · exact Json.find?_insert_self _ _ _
  · rfl

theorem find?_namespace_completeNamespace (kind : Kind) (ns : String)
    (metadata : List (String × Json)) :
    Json.find? "namespace" (completeNamespace kind ns metadata) =
      if kind.namespaced ∧ Json.find? "namespace" metadata = none ∧ ns ≠ "" then
        some (.string ns)
      else Json.find? "namespace" metadata := by
  simp only [completeNamespace]
  split
  · exact Json.find?_insert_self _ _ _
  · rfl

theorem find?_completeNamespace_of_ne (h : key ≠ "namespace") (kind : Kind) (ns : String)
    (metadata : List (String × Json)) :
    Json.find? key (completeNamespace kind ns metadata) = Json.find? key metadata := by
  simp only [completeNamespace]
  split
  · exact Json.find?_insert_of_ne h _ _
  · rfl

theorem sorted_completed (h : Json.Sorted metadata) (kind : Kind) (name ns : String) :
    Json.Sorted (completeNamespace kind ns (completeName name metadata)) := by
  have hnamed : Json.Sorted (completeName name metadata) := by
    simp only [completeName]
    split
    · exact Json.sorted_insert h
    · exact h
  simp only [completeNamespace]
  split
  · exact Json.sorted_insert hnamed
  · exact hnamed

theorem sorted_metadataWith (h : Json.Sorted d.metadata) (version : Option Json) :
    Json.Sorted (d.metadataWith version) := by
  cases version with
  | none => exact h
  | some version => exact Json.sorted_insert h

/-- What stands in the metadata of a document, whether that is there or not. -/
theorem at?_of_metadata? (h : metadata? fields = some metadata) (key : String) :
    (Json.object fields).at? ["metadata", key] = Json.find? key metadata := by
  unfold metadata? at h
  split at h
  · rename_i hnone
    cases h
    simp [Json.at?, Json.field?, hnone, Json.find?]
  · rename_i own hown
    cases h
    exact at?_metadata hown key
  · cases h

theorem sorted_of_metadata? (h : metadata? fields = some metadata)
    (hordered : (Json.object fields).Ordered) : Json.Sorted metadata := by
  unfold metadata? at h
  split at h
  · cases h
    exact Json.sorted_nil
  · rename_i own hown
    cases h
    exact (hordered.of_find? hown).sorted
  · cases h

/-- **Every offer is the completed document**, with the version of what was just read. -/
theorem completes_offer (h : Document.ofParams kind p = .ok d) (latest : Option Json) :
    Completes kind p (.object d.fields) (latest.map versionOf) (d.offer latest) := by
  obtain ⟨own, hown, hmetadata⟩ := metadata_of_ofParams h
  have hordered : (Json.object d.fields).Ordered := Yaml.ordered_read (read_of_ofParams h)
  have hsorted : Json.Sorted d.metadata := by
    rw [hmetadata]
    exact sorted_completed (sorted_of_metadata? hown hordered) kind p.name p.ns
  have hat : ∀ key, (d.withMetadata (d.metadataWith (latest.map versionOf))).at?
      ["metadata", key] = Json.find? key (d.metadataWith (latest.map versionOf)) :=
    at?_metadata (Json.find?_insert_self _ _ _)
  have hfound : ∀ key, (Json.object d.fields).at? ["metadata", key] = Json.find? key own :=
    at?_of_metadata? hown
  have hname : objectName (.object d.fields) =
      ((Json.find? "name" own).bind Json.text?).getD "" :=
    congrArg (fun value => (value.bind Json.text?).getD "") (hfound "name")
  rw [offer_eq]
  constructor
  · exact ⟨_, _, rfl, Json.sorted_insert hordered.sorted, Json.find?_insert_self _ _ _,
      sorted_metadataWith hsorted _⟩
  · intro key hkey
    exact Json.find?_insert_of_ne hkey _ _
  · rw [hat, find?_metadataWith_of_ne (by decide), hmetadata,
      find?_completeNamespace_of_ne (by decide), find?_name_completeName, hname, hfound]
  · rw [hat, find?_metadataWith_of_ne (by decide), hmetadata, find?_namespace_completeNamespace,
      find?_completeName_of_ne (by decide), hfound]
  · rw [hat, find?_version_metadataWith, hmetadata, find?_completeNamespace_of_ne (by decide),
      find?_completeName_of_ne (by decide), hfound]
  · intro key hkey
    simp only [List.mem_cons, List.not_mem_nil, or_false, not_or] at hkey
    rw [hat, find?_metadataWith_of_ne hkey.2.2, hmetadata, find?_completeNamespace_of_ne hkey.2.1,
      find?_completeName_of_ne hkey.1, hfound]

/-! ### Which texts are refused -/

theorem isStorable_iff : IsStorable (.object fields) ↔ (metadata? fields).isSome = true := by
  unfold IsStorable metadata?
  cases hmetadata : Json.find? "metadata" fields with
  | none => simp [Json.isObject, Json.field?, hmetadata]
  | some value => cases value <;> simp [Json.isObject, Json.field?, hmetadata]

/-- A text is a document for storing just if it reads as one. -/
theorem ofParams_of_storable (kind : Kind) (hread : Yaml.read p.yaml = .ok document)
    (h : IsStorable document) :
    ∃ d, Document.ofParams kind p = .ok d ∧ document = .object d.fields := by
  cases document with
  | object fields =>
    obtain ⟨own, hown⟩ := Option.isSome_iff_exists.mp (isStorable_iff.mp h)
    refine ⟨⟨fields, completeNamespace kind p.ns (completeName p.name own)⟩, ?_, rfl⟩
    simp [Document.ofParams, hread, hown]
  | null | bool _ | number _ | string _ | array _ => cases h.1

theorem storable_of_ofParams (h : Document.ofParams kind p = .ok d) :
    IsStorable (.object d.fields) := by
  obtain ⟨own, hown, -⟩ := metadata_of_ofParams h
  exact isStorable_iff.mpr (by simp [hown])

/-! ### Every offer of an update -/

/-- The version that an offer takes over, given what was said before it: none at first, and
    afterwards that of the object that was just read. -/
inductive TakesOver (kind : Kind) : List Exchange → Option Json → Prop where
  | nothing : TakesOver kind [] none
  | latest (before : List Exchange) (ns name : String) (latest : Json) :
      TakesOver kind (before ++ [.get kind ns name (.ok latest)]) (some (versionOf latest))

theorem Retried.first_offer {ns : String} {build : Option Json → Json} {said : List Exchange}
    {result : Except UpdateFailure Json} (h : Retried kind ns build [] said result) :
    ∃ reply after, said = .replace kind (build none) reply :: after := by
  cases said with
  | nil =>
    have hends := h.ends
    generalize hsaid : ([] ++ [] : List Exchange) = talk at hends
    cases hends <;> simp at hsaid
  | cons e after =>
    have hfollows : Follows kind ns build [] e := (h.lawful (List.nil_append _).symm).follows
    generalize hpast : ([] : List Exchange) = past at hfollows
    cases hfollows with
    | first reply => exact ⟨reply, after, rfl⟩
    | pause | read | again => simp at hpast

/-- **An update writes its document and nothing else.**  If the text is no mapping, or its metadata
    is none, the request is refused and the cluster is not asked for anything.  Otherwise the
    cluster is offered an object at once, and every object that it is offered is the document: its
    metadata is made if it has none, a missing name and a missing namespace are those of the
    request, and after a conflict the version is that of the object just read. -/
theorem updates_store_their_document (kind : Kind) (params : Json) (partner : Partner) :
    let p := YamlParams.schema.decodeLenient params
    let talk := (updateYaml kind params).converse partner []
    ((∀ document, Yaml.read p.yaml = .ok document → ¬ IsStorable document) →
      ∃ fault : DocumentFault, talk = ([], .ok (Response.error .paramsError fault.message))) ∧
    ∀ document, Yaml.read p.yaml = .ok document → IsStorable document →
      (∃ response, talk.2 = .ok response) ∧
      (∃ object reply after, talk.1 = .replace kind object reply :: after) ∧
      ∀ before kind' object reply after, talk.1 = before ++ .replace kind' object reply :: after →
        kind' = kind ∧ ∃ version, TakesOver kind before version ∧
          Completes kind p document version object ∧
          ∀ other, Completes kind p document version other → other = object := by
  intro p talk
  rcases converse_updateYaml kind params partner with ⟨fault, hfault, htalk⟩ |
    ⟨d, said, result, hd, htalk, hretried⟩
  · refine ⟨fun _ => ⟨fault, htalk⟩, ?_⟩
    intro document hread hstorable
    obtain ⟨d, hd, -⟩ := ofParams_of_storable kind hread hstorable
    cases hd.symm.trans hfault
  · constructor
    · intro hnone
      exact absurd (storable_of_ofParams hd) (hnone _ (read_of_ofParams hd))
    · intro document hread _
      cases hread.symm.trans (read_of_ofParams hd)
      have hsaid : talk.1 = said := congrArg Prod.fst htalk
      obtain ⟨reply, after, hfirst⟩ := hretried.first_offer
      refine ⟨⟨_, congrArg Prod.snd htalk⟩, ⟨_, reply, after, hsaid.trans hfirst⟩, ?_⟩
      intro before kind' object reply after hoffer
      obtain ⟨rfl, hmade⟩ := (hretried.lawful (hsaid ▸ hoffer)).follows.replace_cases
      refine ⟨rfl, ?_⟩
      rcases hmade with ⟨rfl, rfl⟩ | ⟨earlier, name, latest, rfl, rfl⟩
      · have hcompletes := completes_offer hd none
        exact ⟨none, .nothing, hcompletes, fun _ => hcompletes.unique⟩
      · have hcompletes := completes_offer hd (some latest)
        exact ⟨_, .latest earlier _ name latest, hcompletes, fun _ => hcompletes.unique⟩

/-- A document without metadata is offered with the name and the namespace of the request; after
    the conflict it also bears the version of what is stored. -/
theorem updates_store_their_document_of_config_map :
    let kind := Kind.all[9]
    let params := shopParams "shop" "data:\n  mode: fast\n"
    let p := YamlParams.schema.decodeLenient params
    let talk := (updateYaml kind params).converse (overMemory shopMemory) []
    let document : Json := .object [("data", .object [("mode", .string "fast")])]
    let offer (version : List (String × Json)) : Json :=
      .object [("data", .object [("mode", .string "fast")]), ("metadata", .object
        ([("name", .string "cfg"), ("namespace", .string "shop")] ++ version))]
    let last := offer [("resourceVersion", .string "1")]
    (Yaml.read p.yaml = .ok document ∧ IsStorable document) ∧
      talk.1.map Exchange.act = [.cluster (.replace kind (offer [])), .pause 10,
        .cluster (.get kind "shop" "cfg"), .cluster (.replace kind last)] ∧
      ∃ before reply version, talk.1 = before ++ [.replace kind last reply] ∧
        TakesOver kind before version ∧ Completes kind p document version last := by
  intro kind params p talk document offer last
  have hread : Yaml.read p.yaml = .ok document := by decide +kernel
  have hstorable : IsStorable document := ⟨rfl, fun _ h => by cases h⟩
  have hacts : talk.1.map Exchange.act = [.cluster (.replace kind (offer [])), .pause 10,
      .cluster (.get kind "shop" "cfg"), .cluster (.replace kind last)] := by decide +kernel
  obtain ⟨-, -, hoffers⟩ := (updates_store_their_document kind params (overMemory shopMemory)).2
    document hread hstorable
  have hsplit : talk.1.map Exchange.act = [.cluster (.replace kind (offer [])), .pause 10,
      .cluster (.get kind "shop" "cfg")] ++ [.cluster (.replace kind last)] := hacts
  obtain ⟨before, after, hsaid, -, hafter⟩ := List.map_eq_append_iff.mp hsplit
  obtain ⟨⟨act, reply⟩, rfl, rfl⟩ := List.map_eq_singleton_iff.mp hafter
  obtain ⟨-, version, htakes, hcompletes, -⟩ := hoffers before kind last reply [] hsaid
  exact ⟨⟨hread, hstorable⟩, hacts, before, reply, version, hsaid, htakes, hcompletes⟩

end ClusterAgent.Handler
