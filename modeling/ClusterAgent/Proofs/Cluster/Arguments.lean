/-
  ClusterAgent/Proofs/Cluster/Arguments.lean
  ==========================================
  **What the tool makes of its arguments.**

  The tool tells operands from options by their first character.  `Reading.ofWords` reads a
  command line in this way, and `ReadsBack` says that an object, its namespace, a
  container and a command are found in it again.  Namespaces and containers follow an
  option that takes them as they are, and a command follows `--`; the name of an object
  stands among the operands with nothing to guard it.  So what is read back is what was
  meant just if the name is no option (`names_stay_operands`), and a request to delete
  one object may become one to delete them all (`dashed_name_deletes_all`).
-/
import ClusterAgent.Cluster.Playback
import ClusterAgent.Proofs.Handler.Alone
import ClusterAgent.Proofs.Handler.Entries

namespace ClusterAgent.Cluster

/-! ### Words -/

/-- The word begins with a dash. -/
def HasDash (word : String) : Prop :=
  word.toList.head? = some '-'

instance : DecidablePred HasDash :=
  fun _ => inferInstanceAs (Decidable (_ = _))

/-- A word that the tool takes for an option; a lone dash is an operand. -/
def IsOption (word : String) : Prop :=
  HasDash word ∧ word ≠ "-"

instance : DecidablePred IsOption :=
  fun _ => inferInstanceAs (Decidable (_ ∧ _))

/-- The options whose value is the next word, whatever that is. -/
def valueOptions : List String := ["-n", "-o", "-c"]

/-- A command line as the tool understands it. -/
structure Reading where
  operands : List String
  options : List (String × Option String)
  /-- The words after `--`. -/
  command : List String
deriving DecidableEq, Repr

namespace Reading

def withOperand (word : String) (r : Reading) : Reading :=
  { r with operands := word :: r.operands }

def withOption (option : String) (value : Option String) (r : Reading) : Reading :=
  { r with options := (option, value) :: r.options }

/-- Reads words from the first to the last. -/
def ofWords : List String → Reading
  | [] => ⟨[], [], []⟩
  | word :: rest =>
    if word = "--" then ⟨[], [], rest⟩
    else if word ∈ valueOptions then
      match rest with
      | [] => ⟨[], [(word, none)], []⟩
      | value :: rest => (ofWords rest).withOption word (some value)
    else if IsOption word then (ofWords rest).withOption word none
    else (ofWords rest).withOperand word

/-- The value that an option was given first. -/
def value? (r : Reading) (option : String) : Option String :=
  (r.options.find? fun given => given.1 == option).bind (·.2)

theorem ofWords_end (rest : List String) : ofWords ("--" :: rest) = ⟨[], [], rest⟩ := by
  rw [ofWords.eq_def]
  simp

theorem ofWords_value {option : String} (h : option ∈ valueOptions) (value : String)
    (rest : List String) :
    ofWords (option :: value :: rest) = (ofWords rest).withOption option (some value) := by
  have hend : option ≠ "--" := by
    rintro rfl
    exact absurd h (by decide)
  rw [ofWords.eq_def]
  simp [hend, h]

theorem ofWords_switch {word : String} (h : IsOption word) (hend : word ≠ "--")
    (hvalue : word ∉ valueOptions) (rest : List String) :
    ofWords (word :: rest) = (ofWords rest).withOption word none := by
  rw [ofWords.eq_def]
  simp [hend, hvalue, h]

theorem isOption_of_mem {word : String} (h : word ∈ valueOptions) : IsOption word := by
  have hall : ∀ word ∈ valueOptions, IsOption word := by decide
  exact hall word h

theorem ofWords_operand {word : String} (h : ¬ IsOption word) (rest : List String) :
    ofWords (word :: rest) = (ofWords rest).withOperand word := by
  have hend : word ≠ "--" := by
    rintro rfl
    exact h (by decide)
  have hvalue : word ∉ valueOptions := fun hmem => h (isOption_of_mem hmem)
  rw [ofWords.eq_def]
  simp [hend, hvalue, h]

/-- No option is read as an operand. -/
theorem not_isOption_of_mem_operands {words : List String} {word : String}
    (h : word ∈ (ofWords words).operands) : ¬ IsOption word := by
  fun_induction ofWords words with
  | case1 | case2 | case3 => cases h
  | case4 option hend hvalue value words ih => exact ih h
  | case5 option rest hend hvalue hoption ih => exact ih h
  | case6 operand rest hend hvalue hoperand ih =>
    rcases List.mem_cons.mp h with rfl | h
    · exact hoperand
    · exact ih h

end Reading

/-! ### Errands -/

/-- A run of the tool that is about one object, or about a container of one pod. -/
inductive Errand where
  | get (kind : Kind) (ns name : String)
  | delete (kind : Kind) (ns name : String)
  | logs (t : Target) (tail : Nat)
  | exec (t : Target) (command : List String)
deriving DecidableEq, Repr

/-- The option, if it has a value. -/
def given (option : String) (value : Option String) : List (String × Option String) :=
  (value.map fun v => (option, some v)).toList

/-- The flag that says how many lines there are to be. -/
def tailFlag (tail : Nat) : String := "--tail=" ++ toString tail

namespace Errand

def args : Errand → List String
  | .get kind ns name => (Call.get kind ns name).args
  | .delete kind ns name => (Call.delete kind ns name).args
  | .logs t tail => logArgs t tail
  | .exec t command => execArgs t command

def name : Errand → String
  | .get _ _ name => name
  | .delete _ _ name => name
  | .logs t _ => t.name
  | .exec t _ => t.name

/-- The kind, where the arguments give one; logs and commands are of pods. -/
def kind? : Errand → Option Kind
  | .get kind _ _ => some kind
  | .delete kind _ _ => some kind
  | .logs _ _ => none
  | .exec _ _ => none

/-- What the tool is asked to do, and with what. -/
def operands : Errand → List String
  | .get kind _ name => ["get", kind.plural, name]
  | .delete kind _ name => ["delete", kind.plural, name]
  | .logs t _ => ["logs", t.name]
  | .exec t _ => ["exec", t.name]

/-- The namespace that is passed, if one is. -/
def ns? : Errand → Option String
  | .get kind ns _ => if kind.namespaced ∧ ns ≠ "" then some ns else none
  | .delete kind ns _ => if kind.namespaced ∧ ns ≠ "" then some ns else none
  | .logs t _ => some t.ns
  | .exec t _ => some t.ns

def container? : Errand → Option String
  | .get _ _ _ => none
  | .delete _ _ _ => none
  | .logs t _ => t.container.filter (· ≠ "")
  | .exec t _ => t.container.filter (· ≠ "")

def command : Errand → List String
  | .exec _ command => command
  | _ => []

/-- The options that the arguments are built of, in their order. -/
def options : Errand → List (String × Option String)
  | .get kind ns name => given "-n" (get kind ns name).ns? ++ [("-o", some "json")]
  | .delete kind ns name => given "-n" (delete kind ns name).ns? ++ [("--wait=false", none)]
  | .logs t tail =>
    [("-f", none), (tailFlag tail, none), ("-n", some t.ns)] ++
      given "-c" (logs t tail).container?
  | .exec t command =>
    [("-i", none), ("-t", none), ("-n", some t.ns)] ++ given "-c" (exec t command).container?

/-- The flags that the arguments are built with. -/
def flags : Errand → List String
  | .get _ _ _ => ["-n", "-o"]
  | .delete _ _ _ => ["-n", "--wait=false"]
  | .logs _ tail => ["-f", tailFlag tail, "-n", "-c"]
  | .exec _ _ => ["-i", "-t", "-n", "-c"]

/-- What follows all flags. -/
def closing : Errand → List String
  | .exec _ command => "--" :: command
  | _ => []

end Errand

variable {e : Errand} {flags rest : List String} {word : String}

/-! ### Flags -/

/-- A word that begins with a dash is one of the flags, or the value that follows `-n` or `-c`. -/
def FlagsOnly (flags args : List String) : Prop :=
  ∀ before word after, args = before ++ word :: after → HasDash word →
    word ∈ flags ∨ ∃ earlier, ∃ option ∈ ["-n", "-c"], before = earlier ++ [option]

theorem flagsOnly_nil : FlagsOnly flags [] := by
  intro before word after hargs
  simp at hargs

theorem FlagsOnly.cons (h : FlagsOnly flags rest) (hword : HasDash word → word ∈ flags) :
    FlagsOnly flags (word :: rest) := by
  intro before word' after hargs hdash
  cases before with
  | nil =>
    obtain ⟨rfl, -⟩ := List.cons.inj hargs
    exact .inl (hword hdash)
  | cons first before =>
    obtain ⟨rfl, hrest⟩ := List.cons.inj hargs
    refine (h before word' after hrest hdash).imp_right ?_
    rintro ⟨earlier, option, hoption, rfl⟩
    exact ⟨word :: earlier, option, hoption, rfl⟩

theorem FlagsOnly.plain (h : FlagsOnly flags rest) (hword : ¬ HasDash word) :
    FlagsOnly flags (word :: rest) :=
  h.cons fun hdash => absurd hdash hword

/-- The value of an option may begin with anything. -/
theorem FlagsOnly.value (h : FlagsOnly flags rest) {option : String}
    (hoption : option ∈ ["-n", "-c"]) (hflag : option ∈ flags) (value : String) :
    FlagsOnly flags (option :: value :: rest) := by
  intro before word after hargs hdash
  match before with
  | [] =>
    obtain ⟨rfl, -⟩ := List.cons.inj hargs
    exact .inl hflag
  | [first] =>
    obtain ⟨rfl, -⟩ := List.cons.inj hargs
    exact .inr ⟨[], option, hoption, rfl⟩
  | first :: second :: before =>
    obtain ⟨hfirst, hargs⟩ := List.cons.inj hargs
    obtain ⟨hsecond, hrest⟩ := List.cons.inj hargs
    refine (h before word after hrest hdash).imp_right ?_
    rintro ⟨earlier, option', hoption', rfl⟩
    exact ⟨first :: second :: earlier, option', hoption', rfl⟩

theorem FlagsOnly.namespaceArgs (h : FlagsOnly flags rest) (hflag : "-n" ∈ flags) (kind : Kind)
    (ns : String) : FlagsOnly flags (namespaceArgs kind ns ++ rest) := by
  unfold Cluster.namespaceArgs
  split
  · exact h.value (by decide) hflag ns
  · exact h

theorem flagsOnly_containerArgs (hflag : "-c" ∈ flags) (t : Target) :
    FlagsOnly flags (containerArgs t) := by
  unfold containerArgs
  split
  · exact flagsOnly_nil.value (by decide) hflag _
  · exact flagsOnly_nil

theorem not_hasDash_plural {kind : Kind} (h : kind ∈ Kind.all) : ¬ HasDash kind.plural := by
  have hall : ∀ kind ∈ Kind.all, ¬ HasDash kind.plural := by decide
  exact hall kind h

theorem flagsOnly_args (hkind : ∀ kind, e.kind? = some kind → kind ∈ Kind.all)
    (hname : ¬ HasDash e.name) :
    ∃ front, e.args = front ++ e.closing ∧ FlagsOnly e.flags front := by
  cases e with
  | get kind ns name =>
    refine ⟨_, (List.append_nil _).symm, ?_⟩
    have hjson : FlagsOnly ["-n", "-o"] jsonArgs :=
      (flagsOnly_nil.plain (by decide)).cons fun _ => by decide
    have hrest := hjson.namespaceArgs (by decide) kind ns
    exact ((hrest.plain hname).plain (not_hasDash_plural (hkind kind rfl))).plain (by decide)
  | delete kind ns name =>
    refine ⟨_, (List.append_nil _).symm, ?_⟩
    have hwait : FlagsOnly ["-n", "--wait=false"] ["--wait=false"] :=
      flagsOnly_nil.cons fun _ => by decide
    have hrest := hwait.namespaceArgs (by decide) kind ns
    exact ((hrest.plain hname).plain (not_hasDash_plural (hkind kind rfl))).plain (by decide)
  | logs t tail =>
    refine ⟨_, (List.append_nil _).symm, ?_⟩
    have hcontainer : FlagsOnly (Errand.logs t tail).flags (t.name :: containerArgs t) :=
      (flagsOnly_containerArgs (by simp [Errand.flags]) t).plain hname
    have hns : FlagsOnly (Errand.logs t tail).flags ("-n" :: t.ns :: t.name :: containerArgs t) :=
      hcontainer.value (by decide) (by simp [Errand.flags]) t.ns
    have htail : FlagsOnly (Errand.logs t tail).flags
        (tailFlag tail :: "-n" :: t.ns :: t.name :: containerArgs t) :=
      hns.cons fun _ => by simp [Errand.flags]
    exact (htail.cons fun _ => by simp [Errand.flags]).plain (by decide)
  | exec t command =>
    refine ⟨["exec", "-i", "-t", "-n", t.ns, t.name] ++ containerArgs t, ?_, ?_⟩
    · simp [Errand.args, execArgs, Errand.closing]
    · have hcontainer : FlagsOnly ["-i", "-t", "-n", "-c"] (t.name :: containerArgs t) :=
        (flagsOnly_containerArgs (by decide) t).plain hname
      have hns : FlagsOnly ["-i", "-t", "-n", "-c"] ("-n" :: t.ns :: t.name :: containerArgs t) :=
        hcontainer.value (by decide) (by decide) t.ns
      exact ((hns.cons fun _ => by decide).cons fun _ => by decide).plain (by decide)

/-! ### Reading the arguments back -/

/-- What the tool understands is what it was built for. -/
structure ReadsBack (e : Errand) : Prop where
  operands : (Reading.ofWords e.args).operands = e.operands
  kind : ∀ kind, e.kind? = some kind →
    Kind.all.find? (fun k => (Reading.ofWords e.args).operands[1]? == some k.plural) = some kind
  ns : (Reading.ofWords e.args).value? "-n" = e.ns?
  container : (Reading.ofWords e.args).value? "-c" = e.container?
  command : (Reading.ofWords e.args).command = e.command

theorem ofWords_namespaceArgs (kind : Kind) (ns : String) (rest : List String) :
    let r := Reading.ofWords rest
    Reading.ofWords (namespaceArgs kind ns ++ rest) =
      ⟨r.operands, given "-n" (if kind.namespaced ∧ ns ≠ "" then some ns else none) ++ r.options,
        r.command⟩ := by
  unfold namespaceArgs
  split
  · exact Reading.ofWords_value (by decide) ns rest
  · rfl

theorem ofWords_containerArgs (t : Target) (rest : List String) :
    let r := Reading.ofWords rest
    Reading.ofWords (containerArgs t ++ rest) =
      ⟨r.operands, given "-c" (t.container.filter (· ≠ "")) ++ r.options, r.command⟩ := by
  unfold containerArgs
  cases t.container.filter (· ≠ "") with
  | some c => exact Reading.ofWords_value (by decide) c rest
  | none => rfl

theorem toList_tailFlag (tail : Nat) :
    ∃ rest, (tailFlag tail).toList = '-' :: '-' :: 't' :: rest :=
  ⟨"ail=".toList ++ (toString tail).toList, by simp [tailFlag]⟩

/-- The flag with the number of lines has more than two characters. -/
theorem tailFlag_ne (tail : Nat) :
    ∀ word ∈ ["-", "--", "-n", "-o", "-c"], tailFlag tail ≠ word := by
  intro word hword heq
  obtain ⟨rest, hlist⟩ := toList_tailFlag tail
  have hthird : word.toList[2]? = some 't' := by
    rw [← heq, hlist]
    rfl
  have hshort : ∀ word ∈ ["-", "--", "-n", "-o", "-c"], word.toList[2]? ≠ some 't' := by
    decide
  exact hshort word hword hthird

theorem ofWords_tailFlag (tail : Nat) (rest : List String) :
    Reading.ofWords (tailFlag tail :: rest) =
      (Reading.ofWords rest).withOption (tailFlag tail) none := by
  refine Reading.ofWords_switch ⟨?_, tailFlag_ne tail "-" (by decide)⟩
    (tailFlag_ne tail "--" (by decide)) ?_ rest
  · obtain ⟨rest, hlist⟩ := toList_tailFlag tail
    unfold HasDash
    rw [hlist]
    rfl
  · intro hmem
    exact tailFlag_ne tail _ (List.mem_cons_of_mem _ (List.mem_cons_of_mem _ hmem)) rfl

/-- The kinds differ in the words that name them. -/
theorem find?_plural {kind : Kind} (h : kind ∈ Kind.all) :
    Kind.all.find? (fun k => some kind.plural == some k.plural) = some kind := by
  have hall : ∀ kind ∈ Kind.all,
      Kind.all.find? (fun k => some kind.plural == some k.plural) = some kind := by
    decide
  exact hall kind h

/-- An object is named by three operands. -/
theorem ofWords_object {verb name : String} {kind : Kind} (hverb : ¬ IsOption verb)
    (hkind : kind ∈ Kind.all) (hname : ¬ IsOption name) (rest : List String) :
    Reading.ofWords ([verb, kind.plural, name] ++ rest) =
      (((Reading.ofWords rest).withOperand name).withOperand kind.plural).withOperand verb := by
  have hplural : ¬ IsOption kind.plural := fun h => not_hasDash_plural hkind h.1
  rw [List.cons_append, Reading.ofWords_operand hverb, List.cons_append,
    Reading.ofWords_operand hplural, List.cons_append, Reading.ofWords_operand hname,
    List.nil_append]

theorem ofWords_args (hkind : ∀ kind, e.kind? = some kind → kind ∈ Kind.all)
    (hname : ¬ IsOption e.name) : Reading.ofWords e.args = ⟨e.operands, e.options, e.command⟩ := by
  cases e with
  | get kind ns name =>
    have hjson : Reading.ofWords jsonArgs = ⟨[], [("-o", some "json")], []⟩ := by decide
    have hverb : ¬ IsOption "get" := by decide
    have hread := ofWords_object hverb (hkind kind rfl) hname (namespaceArgs kind ns ++ jsonArgs)
    rw [ofWords_namespaceArgs, hjson] at hread
    exact hread
  | delete kind ns name =>
    have hwait : Reading.ofWords ["--wait=false"] = ⟨[], [("--wait=false", none)], []⟩ := by decide
    have hverb : ¬ IsOption "delete" := by decide
    have hread := ofWords_object hverb (hkind kind rfl) hname
      (namespaceArgs kind ns ++ ["--wait=false"])
    rw [ofWords_namespaceArgs, hwait] at hread
    exact hread
  | logs t tail =>
    have hargs : (Errand.logs t tail).args = "logs" :: "-f" :: tailFlag tail ::
        "-n" :: t.ns :: t.name :: (containerArgs t ++ []) := by
      rw [List.append_nil]
      rfl
    have hname : ¬ IsOption t.name := hname
    rw [hargs, Reading.ofWords_operand (by decide),
      Reading.ofWords_switch (by decide) (by decide) (by decide), ofWords_tailFlag,
      Reading.ofWords_value (by decide), Reading.ofWords_operand hname, ofWords_containerArgs]
    simp [Reading.ofWords, Reading.withOperand, Reading.withOption, Errand.operands,
      Errand.options, Errand.container?, Errand.command]
  | exec t command =>
    have hargs : (Errand.exec t command).args = "exec" :: "-i" :: "-t" :: "-n" :: t.ns :: t.name ::
        (containerArgs t ++ "--" :: command) := by
      simp [Errand.args, execArgs]
    have hname : ¬ IsOption t.name := hname
    rw [hargs, Reading.ofWords_operand (by decide),
      Reading.ofWords_switch (by decide) (by decide) (by decide),
      Reading.ofWords_switch (by decide) (by decide) (by decide),
      Reading.ofWords_value (by decide), Reading.ofWords_operand hname, ofWords_containerArgs,
      Reading.ofWords_end]
    simp [Reading.withOperand, Reading.withOption, Errand.operands, Errand.options,
      Errand.container?, Errand.command]

theorem value?_options (e : Errand) (operands command : List String) :
    let r : Reading := ⟨operands, e.options, command⟩
    r.value? "-n" = e.ns? ∧ r.value? "-c" = e.container? := by
  cases e with
  | get kind ns name =>
    cases h : (Errand.get kind ns name).ns? <;>
      simp [Reading.value?, Errand.options, given, Errand.container?, h]
  | delete kind ns name =>
    cases h : (Errand.delete kind ns name).ns? <;>
      simp [Reading.value?, Errand.options, given, Errand.container?, h]
  | logs t tail =>
    have hns : tailFlag tail ≠ "-n" := tailFlag_ne tail _ (by decide)
    have hcontainer : tailFlag tail ≠ "-c" := tailFlag_ne tail _ (by decide)
    cases h : (Errand.logs t tail).container? <;>
      simp [Reading.value?, Errand.options, given, Errand.ns?, h, hns, hcontainer]
  | exec t command =>
    cases h : (Errand.exec t command).container? <;>
      simp [Reading.value?, Errand.options, given, Errand.ns?, h]

/-- What is read is what the arguments were built from, just if the name is no option. -/
theorem readsBack_iff (hkind : ∀ kind, e.kind? = some kind → kind ∈ Kind.all) :
    ReadsBack e ↔ ¬ IsOption e.name := by
  constructor
  · intro h
    have hname : e.name ∈ e.operands := by
      cases e <;> simp [Errand.name, Errand.operands]
    rw [← h.operands] at hname
    exact Reading.not_isOption_of_mem_operands hname
  · intro hname
    have hread := ofWords_args hkind hname
    obtain ⟨hns, hcontainer⟩ := value?_options e e.operands e.command
    constructor
    · rw [hread]
    · intro kind hgiven
      have hplural : e.operands[1]? = some kind.plural := by
        cases e with
        | get | delete =>
          cases hgiven
          rfl
        | logs | exec => cases hgiven
      rw [hread]
      dsimp only
      rw [hplural]
      exact find?_plural (hkind kind hgiven)
    · rw [hread, hns]
    · rw [hread, hcontainer]
    · rw [hread]

/-- **What was meant is what is read.**  If the name of an object does not begin with a dash,
    then every word of the arguments that does is a flag of theirs or follows `-n` or `-c`; the
    words of a command are left aside.  And the tool finds the kind, the name, the namespace,
    the container and the command in the arguments again just if the name is no option,
    whatever the other words are. -/
theorem names_stay_operands (e : Errand)
    (hkind : ∀ kind, e.kind? = some kind → kind ∈ Kind.all) :
    (¬ HasDash e.name → ∃ front, e.args = front ++ e.closing ∧ FlagsOnly e.flags front) ∧
      (ReadsBack e ↔ ¬ IsOption e.name) :=
  ⟨flagsOnly_args hkind, readsBack_iff hkind⟩

/-- A namespace may be called as an option is. -/
theorem names_stay_operands_of_dashed_namespace :
    let e : Errand := .delete Kind.all[0] "--all" "web"
    (∀ kind, e.kind? = some kind → kind ∈ Kind.all) ∧ ¬ HasDash e.name ∧
      (∃ front, e.args = front ++ e.closing ∧ FlagsOnly e.flags front) ∧ ReadsBack e := by
  intro e
  have hkind : ∀ kind, e.kind? = some kind → kind ∈ Kind.all := by
    intro kind h
    cases h
    decide +kernel
  have hname : ¬ HasDash e.name := by decide
  obtain ⟨hflags, hread⟩ := names_stay_operands e hkind
  exact ⟨hkind, hname, hflags hname, hread.mpr fun h => hname h.1⟩

/-- A request to delete one pod deletes all the pods of its namespace. -/
theorem dashed_name_deletes_all :
    let e : Errand := .delete Kind.all[0] "prod" "--all"
    let client := (⟨none, none⟩ : Kubectl).client Playback.runner
    let removal : Json := .object [("resources", .array [.object
      [("name", .string "--all"), ("namespace", .string "prod")]])]
    (∃ deleter, Handler.all.lookup "pod" "delete" = some deleter ∧
      ((deleter removal).alone client ⟨true, [⟨0, [], ""⟩], []⟩).map (·.2.runs.map (·.args)) =
        some [e.args]) ∧
      HasDash e.name ∧ ¬ FlagsOnly e.flags e.args ∧
      Reading.ofWords e.args = ⟨["delete", "pods"],
        [("--all", none), ("-n", some "prod"), ("--wait=false", none)], []⟩ := by
  intro e client removal
  have hlookup : Handler.all.lookup (Kind.all[0]).resource Action.delete.name =
      some (Handler.delete Kind.all[0]) :=
    Handler.lookup_all (by decide +kernel) (by decide +kernel) rfl
  refine ⟨⟨Handler.delete Kind.all[0], hlookup, by decide +kernel⟩, by decide, ?_, by decide⟩
  intro hflags
  rcases hflags ["delete", "pods"] "--all" ["-n", "prod", "--wait=false"] rfl (by decide) with
    hflag | ⟨earlier, option, hoption, hbefore⟩
  · exact absurd hflag (by decide)
  · have hlast : option = "pods" := by
      have := congrArg List.getLast? hbefore
      simpa using this.symm
    subst hlast
    exact absurd hoption (by decide)

end ClusterAgent.Cluster
