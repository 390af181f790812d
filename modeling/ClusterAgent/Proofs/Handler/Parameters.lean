/-
  ClusterAgent/Proofs/Handler/Parameters.lean
  ===========================================
  **What handlers make of their parameters.**

  Every handler reads one record from its parameters, leniently, and sees nothing of them
  but this record (`reads_of_lookup`).  An object gives the record field by field, so one
  field of the wrong type costs no other field its value
  (`params_are_read_field_by_field`).

  Parameters that are no object are ignored, with one exception: a list whose items fit
  the fields in their order is taken for the record (`only_lists_pass_for_objects`), and
  so a list can open the gate for change events (`list_opens_gate`).
-/
import ClusterAgent.Proofs.Handler.Confinement
import ClusterAgent.Proofs.Handler.Entries
import ClusterAgent.Proofs.Json.Fieldwise

namespace ClusterAgent.Handler

open Json (DistinctKeys Schema)

variable {ρ : Type} {resource action : String} {handler : Handler} {kind : Kind}

/-- The records that handlers read from their parameters, each with its description. -/
def paramSchemas : List (Σ ρ : Type, Schema ρ) := [
  ⟨_, Watch.SetParams.schema⟩, ⟨_, ListParams.schema⟩, ⟨_, GetParams.schema⟩,
  ⟨_, DeleteParams.schema⟩, ⟨_, YamlParams.schema⟩, ⟨_, ScaleParams.schema⟩,
  ⟨_, ExecParams.schema⟩, ⟨_, StdinParams.schema⟩, ⟨_, OpenLogParams.schema⟩,
  ⟨_, CloseLogParams.schema⟩]

theorem lawful_paramSchemas : ∀ s ∈ paramSchemas, s.2.Lawful := by
  simp only [paramSchemas, List.forall_mem_cons, Watch.SetParams.schema, ListParams.schema,
    GetParams.schema, DeleteParams.schema, YamlParams.schema, ScaleParams.schema,
    ExecParams.schema, StdinParams.schema, OpenLogParams.schema, CloseLogParams.schema]
  refine ⟨?_, ?_, ?_, ?_, ?_, ?_, ?_, ?_, ?_, ?_, List.forall_mem_nil _⟩
  all_goals
    constructor
    · decide
    · simp
    · simp
    · rintro ⟨⟩ ⟨⟩ h
      simpa using h

/-! ### The record of a handler -/

/-- The handler sees of its parameters no more than the record that is read from them. -/
def Reads (handler : Handler) (s : Schema ρ) : Prop :=
  ∀ params params', s.decodeLenient params = s.decodeLenient params' →
    handler params = handler params'

/-- The handlers of the registry: the gate's, those of the kinds, and those of the sessions. -/
theorem handler_of_lookup (h : all.lookup resource action = some handler) :
    handler = setWatch ∨
      (∃ kind ∈ Kind.all, ∃ a ∈ kind.actions, kind.resource = resource ∧ a.name = action ∧
        ofAction? kind a = some handler) ∨
      handler ∈ [exec, stdin, openLog, closeLog] := by
  unfold all at h
  simp only [Registry.lookup_register] at h
  split at h
  · cases h
    simp
  split at h
  · cases h
    simp
  split at h
  · cases h
    simp
  split at h
  · cases h
    simp
  rcases lookup_foldl_registerKind Kind.all _ h with hgate | hown
  · rw [Registry.lookup_register] at hgate
    split at hgate
    · exact .inl (Option.some.inj hgate).symm
    · cases hgate
  · exact .inr (.inl hown)

theorem reads_of_action {a : Action} (h : ofAction? kind a = some handler) :
    ∃ s ∈ paramSchemas, Reads handler s.2 := by
  cases a with
  | list =>
    cases h
    refine ⟨⟨_, ListParams.schema⟩, by simp [paramSchemas], fun params params' hsame => ?_⟩
    unfold list
    rw [hsame]
  | get =>
    cases h
    refine ⟨⟨_, GetParams.schema⟩, by simp [paramSchemas], fun params params' hsame => ?_⟩
    unfold get
    rw [hsame]
  | delete =>
    cases h
    refine ⟨⟨_, DeleteParams.schema⟩, by simp [paramSchemas], fun params params' hsame => ?_⟩
    unfold delete
    rw [hsame]
  | updateYaml =>
    cases h
    refine ⟨⟨_, YamlParams.schema⟩, by simp [paramSchemas], fun params params' hsame => ?_⟩
    unfold updateYaml
    rw [hsame]
  | updateObj =>
    cases h
    refine ⟨⟨_, ScaleParams.schema⟩, by simp [paramSchemas], fun params params' hsame => ?_⟩
    unfold updateObj
    rw [hsame]
  | exec | stdin | openLog | closeLog => cases h

theorem reads_of_session (h : handler ∈ [exec, stdin, openLog, closeLog]) :
    ∃ s ∈ paramSchemas, Reads handler s.2 := by
  simp only [List.mem_cons, List.not_mem_nil, or_false] at h
  rcases h with rfl | rfl | rfl | rfl
  · refine ⟨⟨_, ExecParams.schema⟩, by simp [paramSchemas], fun params params' hsame => ?_⟩
    unfold exec
    rw [hsame]
  · refine ⟨⟨_, StdinParams.schema⟩, by simp [paramSchemas], fun params params' hsame => ?_⟩
    unfold stdin
    rw [hsame]
  · refine ⟨⟨_, OpenLogParams.schema⟩, by simp [paramSchemas], fun params params' hsame => ?_⟩
    unfold openLog
    rw [hsame]
  · refine ⟨⟨_, CloseLogParams.schema⟩, by simp [paramSchemas], fun params params' hsame => ?_⟩
    unfold closeLog
    rw [hsame]

theorem reads_of_lookup (h : all.lookup resource action = some handler) :
    ∃ s ∈ paramSchemas, Reads handler s.2 := by
  rcases handler_of_lookup h with rfl | ⟨kind, -, a, -, -, -, hown⟩ | hsession
  · refine ⟨⟨_, Watch.SetParams.schema⟩, by simp [paramSchemas], fun params params' hsame => ?_⟩
    unfold setWatch Watch.Gate.requested
    rw [hsame]
  · exact reads_of_action hown
  · exact reads_of_session hsession

/-! ### Objects -/

/-- **Parameters are read field by field.**  Whatever record is read leniently from an object, each
    of its fields holds what stands under its own key, if that decodes, and its default otherwise;
    if every field that is given decodes, this is what strict reading gives.  The handlers read no
    other records. -/
theorem params_are_read_field_by_field :
    (∀ resource action handler, all.lookup resource action = some handler →
      ∃ s ∈ paramSchemas, Reads handler s.2) ∧
    (∀ s ∈ paramSchemas, s.2.Lawful) ∧
    ∀ {ρ : Type} (s : Schema ρ), s.Lawful → ∀ object, DistinctKeys object → s.Fieldwise object :=
  ⟨fun _ _ _ h => reads_of_lookup h, lawful_paramSchemas, fun _ hs _ h => hs.fieldwise h⟩

/-- A namespace that is a number costs the name nothing. -/
theorem params_are_read_field_by_field_of_get :
    let object : List (String × Json) :=
      [("name", .string "web-0"), ("namespace", .int 7), ("unknown", .object [])]
    GetParams.schema.Lawful ∧ DistinctKeys object ∧ GetParams.schema.Fieldwise object ∧
      GetParams.schema.decodeLenient (.object object) = ⟨"web-0", "", ""⟩ := by
  intro object
  have hlawful : GetParams.schema.Lawful :=
    params_are_read_field_by_field.2.1 ⟨_, GetParams.schema⟩ (by simp [paramSchemas])
  have hkeys : DistinctKeys object := by decide
  have hfields := params_are_read_field_by_field.2.2 GetParams.schema hlawful object hkeys
  refine ⟨hlawful, hkeys, hfields, (hfields.unique ⟨"web-0", "", ""⟩ ?_).symm⟩
  simp [GetParams.schema, object, Json.find?, Json.asString, Json.int]

/-! ### Anything else -/

/-- A question that has no target: it is about all objects of a kind, or about a session without
    an identifier. -/
def Aimless : Act → Prop
  | .cluster (.list _ ns) => ns = none
  | .findShell id => id = ""
  | .sendInput _ bytes => bytes = []
  | .cancelLog id => id = ""
  | _ => False

theorem aimless_action {a : Action} (h : ofAction? kind a = some handler) :
    (handler .null).Asks Aimless := by
  cases a with
  | list =>
    cases h
    refine ⟨rfl, fun reply => ?_⟩
    cases reply <;> trivial
  | get | delete | updateObj =>
    cases h
    trivial
  | updateYaml =>
    cases h
    -- A blank text reads as null, which is no document.
    have hblank : Document.ofParams kind ⟨"", "", ""⟩ = .error .notMapping := by
      have hread : Yaml.read "" = .ok .null := by decide
      simp [Document.ofParams, hread]
    have hparams : YamlParams.schema.decodeLenient .null = ⟨"", "", ""⟩ := rfl
    simp only [updateYaml, hparams, hblank]
    trivial
  | exec | stdin | openLog | closeLog => cases h

theorem aimless_session (h : handler ∈ [exec, stdin, openLog, closeLog]) :
    (handler .null).Asks Aimless := by
  simp only [List.mem_cons, List.not_mem_nil, or_false] at h
  rcases h with rfl | rfl | rfl | rfl
  · trivial
  · refine ⟨rfl, fun found => ?_⟩
    cases found with
    | none => trivial
    | some shell =>
      have hinput : "".toUTF8.toList = [] := by decide +kernel
      refine ⟨hinput, fun taken => ?_⟩
      cases taken <;> trivial
  · trivial
  · exact ⟨rfl, fun _ => trivial⟩

theorem aimless_of_lookup (h : all.lookup resource action = some handler) :
    (handler .null).Asks Aimless := by
  rcases handler_of_lookup h with rfl | ⟨kind, -, a, -, -, -, hown⟩ | hsession
  · trivial
  · exact aimless_action hown
  · exact aimless_session hsession

theorem lookup_setWatch : all.lookup "watch" Action.get.name = some setWatch := by
  have hkinds : ∀ kind ∈ Kind.all, kind.resource ≠ "watch" := by decide
  unfold all
  simp only [Registry.lookup_register, Prod.mk.injEq, String.reduceEq, false_and, if_false]
  rw [lookup_foldl_of_not_mem hkinds, Registry.lookup_register, if_pos rfl]

/-- **Only a list may pass for an object.**  Parameters that are no object give the default record,
    unless they are a list whose items decode for the fields of the record, one after the other from
    the first field on, and are not all defaults; such a list gives these fields.  A handler whose
    record is the default has no target: it neither turns the gate nor starts a session, and what
    it asks for names no object and no session. -/
theorem only_lists_pass_for_objects (params : Json) (hobject : params.isObject = false) :
    (∀ s ∈ paramSchemas,
      (s.2.decodeLenient params = s.2.zero ↔
        ∀ items, params = .array items → s.2.Lists items → s.2.Defaults items) ∧
      ∀ items, params = .array items → s.2.Lists items →
        ∀ (i : Nat) f, s.2.fields[i]? = some f →
          f.get (s.2.decodeLenient params) = ((items[i]?).bind f.decode).getD (f.get s.2.zero)) ∧
    ∀ resource action handler, all.lookup resource action = some handler →
      ∃ s ∈ paramSchemas, Reads handler s.2 ∧
        (s.2.decodeLenient params = s.2.zero → (handler params).Asks Aimless) := by
  constructor
  · intro s hs
    have hlawful := lawful_paramSchemas s hs
    refine ⟨hlawful.decodeLenient_eq_zero_iff_of_not_object hobject, ?_⟩
    rintro items rfl hlists i f hi
    exact hlawful.get_of_lists hlists hi
  · intro resource action handler h
    obtain ⟨s, hs, hreads⟩ := reads_of_lookup h
    refine ⟨s, hs, hreads, ?_⟩
    intro hzero
    have hnull : s.2.decodeLenient .null = s.2.zero := rfl
    rw [hreads params .null (hzero.trans hnull.symm)]
    exact aimless_of_lookup h

/-- Two texts are more items than the gate's record has fields. -/
theorem only_lists_pass_for_objects_of_gate :
    let schema := Watch.SetParams.schema
    let params : Json := .array [.string "open", .string "close"]
    params.isObject = false ∧ schema.decodeLenient params = schema.zero ∧
      ∃ s ∈ paramSchemas, Reads setWatch s.2 ∧
        (s.2.decodeLenient params = s.2.zero → (setWatch params).Asks Aimless) := by
  intro schema params
  have hmem : ⟨_, schema⟩ ∈ paramSchemas := by simp [paramSchemas, schema]
  have hlong : ¬ schema.Lists [.string "open", .string "close"] := fun h => absurd h.1 (by decide)
  obtain ⟨hrecords, hhandlers⟩ := only_lists_pass_for_objects params rfl
  refine ⟨rfl, ?_, hhandlers _ _ _ lookup_setWatch⟩
  apply (hrecords ⟨_, schema⟩ hmem).1.mpr
  intro items hitems hlists
  rw [← Json.array.inj hitems] at hlists
  exact absurd hlists hlong

/-- The parameters are a list, and the gate opens. -/
theorem list_opens_gate :
    let params : Json := .array [.string "open"]
    params.isObject = false ∧
      Watch.SetParams.schema.decodeLenient params ≠ Watch.SetParams.schema.zero ∧
      (∃ handler next, all.lookup "watch" "get" = some handler ∧
        handler params = .ask (.setGate true) next) ∧
      Watch.Gate.closed.setWatch params = (⟨true⟩, Watch.Gate.accepted) := by
  refine ⟨rfl, by decide, ⟨setWatch, _, lookup_setWatch, rfl⟩, by decide⟩

end ClusterAgent.Handler
