/-
  ClusterAgent/Proofs/Handler/Editing.lean
  ========================================
  **Opening an object and saving it as it is.**

  Reading an object as a text and storing that very text goes through everything that
  an update does: the text is read, its metadata is completed, the cluster compares
  versions, and after a conflict the version is taken from the object read anew.  For an
  object that the cluster holds under a name, none of this changes anything: every offer
  is the object itself (`offer_stored`), so that what is stored differs in its version
  alone (`edit_round_trip`).
-/
import ClusterAgent.Proofs.Handler.Alone
import ClusterAgent.Proofs.Handler.Entries
import ClusterAgent.Proofs.Handler.Race
import ClusterAgent.Proofs.Yaml.Values

namespace ClusterAgent.Handler

open Cluster (Failure Memory objectName objectNamespace isObject versionPath)
open Cluster.Memory (SameTarget Versioned holds nextVersion putFirst version versionNumber)

variable {kind : Kind} {ns name : String} {stored : Json} {m : Memory}

/-! ### The document of a stored object -/

/-- A text at the end of two steps stands in an object within an object. -/
theorem fields_of_textAt {j : Json} {key inner text : String} (h : j.textAt [key, inner] = text)
    (hblank : text ≠ "") :
    ∃ fields below, j = .object fields ∧ Json.find? key fields = some (.object below) ∧
      Json.find? inner below = some (.string text) := by
  have hat : ∃ value, j.at? [key, inner] = some value ∧ value.text? = some text := by
    unfold Json.textAt at h
    cases hvalue : (j.at? [key, inner]).bind Json.text? with
    | none => exact absurd (by simpa [hvalue] using h.symm) hblank
    | some found =>
      obtain rfl : found = text := by simpa [hvalue] using h
      exact Option.bind_eq_some_iff.mp hvalue
  obtain ⟨value, hvalue, htext⟩ := hat
  obtain ⟨outer, houter, hinner⟩ := Option.bind_eq_some_iff.mp hvalue
  obtain ⟨last, hlast, hend⟩ := Option.bind_eq_some_iff.mp hinner
  cases j with
  | object fields =>
    cases outer with
    | object below =>
      cases hend
      cases value with
      | string found =>
        cases htext
        exact ⟨fields, below, rfl, houter, hlast⟩
      | null | bool _ | number _ | array _ | object _ => cases htext
    | null | bool _ | number _ | string _ | array _ => cases hlast
  | null | bool _ | number _ | string _ | array _ => cases houter

/-- A document with the fields of the stored object, its metadata among them. -/
structure Documents (d : Document) (stored : Json) : Prop where
  fields : stored = .object d.fields
  metadata : Json.find? "metadata" d.fields = some (.object d.metadata)

/-- The metadata of a stored object is complete. -/
theorem ofParams_stored {p : YamlParams} (hread : Yaml.read p.yaml = .ok stored)
    (hobject : isObject kind p.ns p.name stored = true) (hname : p.name ≠ "")
    (hns : kind.namespaced = true → p.ns ≠ "") :
    ∃ d, Document.ofParams kind p = .ok d ∧ Documents d stored := by
  obtain ⟨-, hown, hspace⟩ := Memory.sameTarget_of_isObject hobject
  obtain ⟨fields, metadata, rfl, hmetadata, hfound⟩ := fields_of_textAt hown.symm hname
  have hnamed : completeName p.name metadata = metadata := by
    simp [completeName, hfound, Json.text?, hname]
  have hspaced : completeNamespace kind p.ns metadata = metadata := by
    unfold completeNamespace
    rw [if_neg]
    rintro ⟨hkind, hmissing, -⟩
    obtain ⟨fields', metadata', hfields, hmetadata', hfound'⟩ :=
      fields_of_textAt (hspace hkind).symm (hns hkind)
    cases hfields
    cases hmetadata.symm.trans hmetadata'
    cases hmissing.symm.trans hfound'
  refine ⟨⟨fields, metadata⟩, ?_, rfl, hmetadata⟩
  simp [Document.ofParams, hread, metadata?, hmetadata, hnamed, hspaced]

/-- Every offer of the document of a stored object is the object itself, also the one that takes
    over the version of the object read anew. -/
theorem offer_stored {d : Document} (h : Documents d stored) (hordered : stored.Ordered)
    (hversion : version stored ≠ "") :
    d.offer none = stored ∧ d.offer (some stored) = stored := by
  have htext : stored.textAt versionPath = version stored := rfl
  obtain ⟨fields, metadata, hfields, hmetadata, hfound⟩ := fields_of_textAt htext hversion
  cases h.fields.symm.trans hfields
  cases h.metadata.symm.trans hmetadata
  rw [h.fields] at hordered ⊢
  have hsame : d.withMetadata d.metadata = .object d.fields :=
    congrArg Json.object (Json.insert_of_find? hordered.sorted h.metadata)
  refine ⟨hsame, ?_⟩
  have hlatest : (Json.object d.fields).at? versionPath = some (.string (version stored)) := by
    simp [Json.at?, Json.field?, h.metadata, hfound]
  have hkept : Json.insert "resourceVersion" (.string (version stored)) d.metadata = d.metadata :=
    Json.insert_of_find? (hordered.of_find? h.metadata).sorted hfound
  simp only [Document.offer, hlatest, Option.getD_some, hkept]
  exact hsame

/-! ### Replacing an object by itself -/

/-- The conflict that was ordered for the replacement of an object. -/
def modified (kind : Kind) (name : String) : Failure :=
  .conflict ("Operation cannot be fulfilled on " ++ kind.plural ++ " \"" ++ name ++
    "\": the object has been modified")

/-- The cluster after an object was stored in the place of the one of that name. -/
def saved (m : Memory) (kind : Kind) (ns name : String) (next : Json) : Memory :=
  { m with
    objects := putFirst (holds kind ns name) next m.objects
    conflicts := 0
    replaced := m.replaced ++ [next] }

theorem replace_of_conflicts (h : m.conflicts ≠ 0) (object : Json) :
    m.replace kind object = (.error (modified kind (objectName object)),
      { m with conflicts := m.conflicts - 1 }) := by
  simp [Memory.replace, h, modified]

theorem replace_stored (hm : m.Versioned) (hstored : m.find? kind ns name = some stored)
    (hconflicts : m.conflicts = 0) {v : Nat} (hversion : version stored = toString v) :
    m.replace kind stored =
      (.ok (nextVersion v stored), saved m kind ns name (nextVersion v stored)) := by
  have htarget := Memory.sameTarget_of_isObject (Memory.recalls_get hm hstored).1
  have hfind : m.find? kind (objectNamespace stored) (objectName stored) = some stored := by
    rw [← Memory.find?_of_sameTarget htarget, hstored]
  have hnumber : versionNumber (version stored) = v := by
    obtain ⟨n, hn, hn'⟩ := Memory.find?_versioned hm hstored
    rw [hn', Memory.versionNumber_toString hn]
    exact Memory.toString_injective (hn'.symm.trans hversion)
  have hfresh : ¬ (version stored ≠ "" ∧ version stored ≠ toString v) := fun h => h.2 hversion
  simp only [Memory.replace, hconflicts, hfind, hnumber, hfresh, ne_eq, not_true, if_false, saved,
    Memory.holds_eq_of_sameTarget htarget]

/-- The conflicts that were ordered, but for one that has been met. -/
def fewer (m : Memory) : Memory :=
  { m with conflicts := m.conflicts - 1 }

/-- After a conflict the object is read anew, and it is still the same. -/
theorem alone_after_conflict (hm : m.Versioned) (hstored : m.find? kind ns name = some stored)
    {build : Option Json → Json} (hbuild : build (some stored) = stored) (left : Nat)
    (hconflicts : m.conflicts ≠ 0) :
    (replaceFrom kind ns build (left + 1) stored).alone Memory.client m =
      (replaceFrom kind ns build left stored).alone Memory.client (fewer m) := by
  have hname : objectName stored = name :=
    (Memory.sameTarget_of_isObject (Memory.recalls_get hm hstored).1).2.1.symm
  have hrefused : Memory.client.call m (.replace kind stored) =
      (.error (modified kind (objectName stored)), fewer m) :=
    replace_of_conflicts hconflicts stored
  have hread : Memory.client.call (fewer m) (.get kind ns (objectName stored)) =
      (.ok stored, fewer m) := by
    have hfind : (fewer m).find? kind ns name = some stored := hstored
    simp only [Memory.client, Memory.call, Memory.get, hname, hfind]
    rfl
  rw [replaceFrom]
  simp only [Program.alone, hrefused, modified, Failure.isConflict, if_true]
  simp only [hread, hbuild]

theorem alone_without_conflict (hm : m.Versioned) (hstored : m.find? kind ns name = some stored)
    (hconflicts : m.conflicts = 0) {v : Nat} (hversion : version stored = toString v)
    (build : Option Json → Json) (left : Nat) :
    (replaceFrom kind ns build left stored).alone Memory.client m =
      some (.ok (nextVersion v stored), saved m kind ns name (nextVersion v stored)) := by
  have haccepted : Memory.client.call m (.replace kind stored) =
      (.ok (nextVersion v stored), saved m kind ns name (nextVersion v stored)) :=
    replace_stored hm hstored hconflicts hversion
  rw [replaceFrom]
  simp only [Program.alone, haccepted]

/-- Replacing a stored object by itself succeeds unless there are more conflicts than attempts are
    left. -/
theorem alone_replaceFrom (hm : m.Versioned) (hstored : m.find? kind ns name = some stored)
    {v : Nat} (hversion : version stored = toString v) {build : Option Json → Json}
    (hbuild : build (some stored) = stored) (left : Nat) :
    (replaceFrom kind ns build left stored).alone Memory.client m =
      if m.conflicts ≤ left then
        some (.ok (nextVersion v stored), saved m kind ns name (nextVersion v stored))
      else
        some (.error (.replacing (modified kind name)),
          { m with conflicts := m.conflicts - (left + 1) }) := by
  induction left generalizing m with
  | zero =>
    by_cases hconflicts : m.conflicts = 0
    · rw [if_pos (Nat.le_of_eq hconflicts)]
      exact alone_without_conflict hm hstored hconflicts hversion build 0
    · have hname : objectName stored = name :=
        (Memory.sameTarget_of_isObject (Memory.recalls_get hm hstored).1).2.1.symm
      have hrefused : Memory.client.call m (.replace kind stored) =
          (.error (modified kind name), fewer m) :=
        hname ▸ replace_of_conflicts hconflicts stored
      rw [if_neg (by omega), replaceFrom]
      simp only [Program.alone, hrefused, modified, Failure.isConflict, if_true]
      rfl
  | succ left ih =>
    by_cases hconflicts : m.conflicts = 0
    · rw [if_pos (by omega)]
      exact alone_without_conflict hm hstored hconflicts hversion build (left + 1)
    · rw [alone_after_conflict hm hstored hbuild left hconflicts, ih (m := fewer m) hm hstored]
      have hless : (fewer m).conflicts ≤ left ↔ m.conflicts ≤ left + 1 := by
        simp only [fewer]
        omega
      have hleft : (fewer m).conflicts - (left + 1) = m.conflicts - (left + 1 + 1) := by
        simp only [fewer]
        omega
      simp only [hless, hleft]
      rfl

/-! ### The contract -/

/-- An object was stored anew as it was, with the next version; all other objects are as they
    were, and in their places. -/
def SavedUnchanged (kind : Kind) (ns name : String) (stored : Json) (m m' : Memory) : Prop :=
  ∃ (v : Nat) (before after : List (String × Json)),
    version stored = toString v ∧
    m.objects = before ++ (kind.plural, stored) :: after ∧
    m'.objects = before ++
      (kind.plural, stored.putAt versionPath (.string (toString (v + 1)))) :: after ∧
    m'.find? kind ns name = some (stored.putAt versionPath (.string (toString (v + 1))))

theorem putFirst_append {p : String × Json → Bool} {before after : List (String × Json)}
    {entry : String × Json} (hbefore : ∀ e ∈ before, p e = false) (hentry : p entry = true)
    (object : Json) :
    putFirst p object (before ++ entry :: after) = before ++ (entry.1, object) :: after := by
  induction before with
  | nil => simp [putFirst, hentry]
  | cons first rest ih =>
    have hfirst := hbefore first List.mem_cons_self
    have hrest := ih fun e he => hbefore e (List.mem_cons_of_mem _ he)
    simp [putFirst, hfirst, hrest]

theorem savedUnchanged_saved (hm : m.Versioned) (hstored : m.find? kind ns name = some stored)
    {v : Nat} (hversion : version stored = toString v) :
    SavedUnchanged kind ns name stored m (saved m kind ns name (nextVersion v stored)) := by
  have htarget := Memory.sameTarget_of_isObject (Memory.recalls_get hm hstored).1
  obtain ⟨entry, hentry, hobject⟩ := Option.map_eq_some_iff.mp hstored
  obtain ⟨hholds, before, after, hobjects, hbefore⟩ := List.find?_eq_some_iff_append.mp hentry
  have hplural : entry.1 = kind.plural := by
    simp only [holds, Bool.and_eq_true, beq_iff_eq] at hholds
    exact hholds.1
  obtain ⟨plural, object⟩ := entry
  cases hplural
  cases hobject
  refine ⟨v, before, after, hversion, hobjects, ?_, ?_⟩
  · have hput : putFirst (holds kind ns name) (nextVersion v object)
        (before ++ (kind.plural, object) :: after) =
        before ++ (kind.plural, nextVersion v object) :: after :=
      putFirst_append (fun e he => by simpa using hbefore e he) hholds _
    rw [← hobjects] at hput
    exact hput
  · have hkept : ∀ e, holds kind ns name e = true →
        holds kind ns name (e.1, nextVersion v object) = true := by
      rw [Memory.holds_eq_of_sameTarget htarget]
      exact Memory.holds_next v
    exact Memory.find?_putFirst_self hkept hentry

theorem alone_get (hname : name ≠ "") (hns : kind.namespaced = true → ns ≠ "")
    (hstored : m.find? kind ns name = some stored) {asked : Json}
    (hasked : GetParams.schema.decodeLenient asked = ⟨name, ns, "yaml"⟩) :
    (get kind asked).alone Memory.client m =
      some (Response.success (.string (Yaml.print stored)), m) := by
  have hcheck : checkTarget kind name ns = none := by
    unfold checkTarget
    rw [if_neg hname, if_neg (fun h => hns h.1 h.2)]
  have hfound : Memory.client.call m (.get kind ns name) = (.ok stored, m) := by
    simp only [Memory.client, Memory.call, Memory.get, hstored]
    rfl
  unfold get
  generalize GetParams.schema.decodeLenient asked = p at hasked
  subst hasked
  simp only [hcheck, Program.alone, hfound, if_true]

/-- **Editing goes round.**  Let a cluster hold an object under a name, whatever has happened to it,
    and let its text read back as that object.  Whoever gets the object as a text and sends this
    very text back meets success and changes nothing but the version, which is the next one, if
    fewer than five conflicts come up; otherwise the update is refused and nothing is stored. -/
theorem edit_round_trip (kind : Kind) (hkind : kind ∈ Kind.all) (hget : Action.get ∈ kind.actions)
    (hupdate : Action.updateYaml ∈ kind.actions) (moves : List Race.Move) (m : Memory)
    (hm : m.objects = (Race.run moves).memory.objects) (ns name : String) (hname : name ≠ "")
    (hns : kind.namespaced = true → ns ≠ "") (stored : Json)
    (hstored : m.find? kind ns name = some stored)
    (hread : Yaml.read (Yaml.print stored) = .ok stored) (asked : Json)
    (hasked : GetParams.schema.decodeLenient asked = ⟨name, ns, "yaml"⟩) :
    ∃ getter updater text, all.lookup kind.resource Action.get.name = some getter ∧
      all.lookup kind.resource Action.updateYaml.name = some updater ∧
      (getter asked).alone Memory.client m = some (Response.success (.string text), m) ∧
      ∀ sent, YamlParams.schema.decodeLenient sent = ⟨name, ns, text⟩ →
        (m.conflicts < 5 → ∃ m', (updater sent).alone Memory.client m = some (Response.ok, m') ∧
          SavedUnchanged kind ns name stored m m') ∧
        (5 ≤ m.conflicts → ∃ m',
          (updater sent).alone Memory.client m =
            some (Response.error .updateError (modified kind name).message, m') ∧
          m'.objects = m.objects ∧ m'.replaced = m.replaced) := by
  have hversioned : m.Versioned :=
    Memory.versioned_of_objects hm (Race.orderly_run moves).versions
  obtain ⟨v, -, hversion⟩ := Memory.find?_versioned hversioned hstored
  have hobject : isObject kind ns name stored = true :=
    (Memory.recalls_get hversioned hstored).1
  have hblank : version stored ≠ "" := by
    rw [hversion]
    exact Memory.toString_ne_blank v
  refine ⟨get kind, updateYaml kind, Yaml.print stored, lookup_all hkind hget rfl,
    lookup_all hkind hupdate rfl, ?_, ?_⟩
  · exact alone_get hname hns hstored hasked
  · intro sent hsent
    obtain ⟨d, hd, hdocuments⟩ := ofParams_stored
      (p := YamlParams.schema.decodeLenient sent) (by rw [hsent, hread]) (by rw [hsent, hobject])
      (by rw [hsent]; exact hname) (by rw [hsent]; exact hns)
    obtain ⟨hfirst, hlater⟩ := offer_stored hdocuments (Yaml.ordered_read hread) hblank
    have hupdated := alone_replaceFrom hversioned hstored hversion hlater (conflictAttempts - 1)
    have hprogram : (updateYaml kind sent).alone Memory.client m =
        ((replaceFrom kind ns d.offer (conflictAttempts - 1) stored).alone Memory.client m).bind
          fun (result, m') => some (updateResponse result, m') := by
      simp only [updateYaml, hd]
      rw [alone_bind]
      simp [retryOnConflict, hfirst, hsent, Program.alone]
    rw [hprogram, hupdated]
    constructor
    · intro hfew
      rw [if_pos (by simp only [conflictAttempts]; omega)]
      exact ⟨_, rfl, savedUnchanged_saved hversioned hstored hversion⟩
    · intro hmany
      rw [if_neg (by simp only [conflictAttempts]; omega)]
      exact ⟨_, rfl, rfl, rfl⟩

/-- A config map is opened and saved, and two conflicts come up. -/
theorem edit_round_trip_of_config_map :
    let kind := Kind.all[9]
    let content : Json := .object [("data", .object [("mode", .string "on")])]
    let m := (Race.run [.insert kind "prod" "web" content, .conflicts 2]).memory
    let stored : Json := .object [("data", .object [("mode", .string "on")]),
      ("metadata", .object [("name", .string "web"), ("namespace", .string "prod"),
        ("resourceVersion", .string "1")])]
    let asked : Json := .object [("name", .string "web"), ("namespace", .string "prod"),
      ("output", .string "yaml")]
    kind.resource = "configMap" ∧ m.conflicts = 2 ∧
      ∃ getter updater text m', all.lookup "configMap" "get" = some getter ∧
        all.lookup "configMap" "update_yaml" = some updater ∧
        (getter asked).alone Memory.client m = some (Response.success (.string text), m) ∧
        (updater (.object [("name", .string "web"), ("namespace", .string "prod"),
          ("yaml", .string text)])).alone Memory.client m = some (Response.ok, m') ∧
        SavedUnchanged kind "prod" "web" stored m m' := by
  intro kind content m stored asked
  have hconflicts : m.conflicts = 2 := by decide +kernel
  obtain ⟨getter, updater, text, hgetter, hupdater, hasked, hsent⟩ :=
    edit_round_trip kind (by decide +kernel) (by decide +kernel) (by decide +kernel)
      [.insert kind "prod" "web" content, .conflicts 2] m rfl "prod" "web" (by decide)
      (fun _ => by decide) stored (by decide +kernel) (by decide +kernel) asked (by decide +kernel)
  obtain ⟨m', hsaved⟩ := (hsent (.object [("name", .string "web"), ("namespace", .string "prod"),
    ("yaml", .string text)]) (by rfl)).1 (by omega)
  exact ⟨rfl, hconflicts, getter, updater, text, m', hgetter, hupdater, hasked, hsaved⟩

end ClusterAgent.Handler
