/-
  ClusterAgent/Proofs/Cluster/Classification.lean
  ===============================================
  **Why the tool says that it failed.**

  An answer of the server has a reason and a message, and the tool writes both into one
  text.  The text is searched as a whole for the phrases that tell of a missing object, and
  then for those that tell of a conflict.  Around the message there is nothing to be found
  but the reason (`missing_serverError`, `stale_serverError`), so the reason decides unless
  the message holds one of these phrases (`server_errors_are_told_apart`).  If it does, then
  it can be stronger than the reason (`message_overrules_reason`).
-/
import ClusterAgent.Cluster.Failure
import ClusterAgent.Proofs.Text.Trimming

namespace ClusterAgent.Cluster.Failure

open Text (AllBlank after? dropLeading isBlank mentions trim trimmed)

variable {mark word reason message : String}

/-! ### Phrases -/

/-- A reason as the tool writes it, and what a message says in its place. -/
def marks (word phrase : String) : List String := ["(" ++ word ++ ")", phrase]

/-- The phrases that tell of a missing object. -/
def missingMarks : List String := marks "NotFound" "not found"

/-- The phrases that tell of a conflict. -/
def staleMarks : List String := marks "Conflict" "the object has been modified"

/-- Whether the text holds one of the phrases. -/
def tells (marks : List String) (text : String) : Bool :=
  marks.any fun mark => mentions text mark

theorem classify_eq (status : Int) (text : String) :
    classify status text =
      if tells missingMarks text then .notFound (String.ofList (Failure.reason text.toList))
      else if tells staleMarks text then .conflict (String.ofList (Failure.reason text.toList))
      else .command status (trimmed text) := by
  simp [classify, tells, missingMarks, staleMarks, marks]

/-! ### Blanks around the text -/

/-- The phrase begins and ends with characters that are not blank. -/
def IsPhrase (mark : String) : Prop :=
  (∃ c, mark.toList.head? = some c ∧ isBlank c = false) ∧
    ∃ c, mark.toList.getLast? = some c ∧ isBlank c = false

theorem mentions_surrounded (h : IsPhrase mark) {before after : String}
    (hbefore : AllBlank before.toList) (hafter : AllBlank after.toList) (text : String) :
    mentions (before ++ text ++ after) mark = mentions text mark := by
  obtain ⟨⟨first, hfirst, hfirst'⟩, last, hlast, hlast'⟩ := h
  rw [Bool.eq_iff_iff]
  unfold mentions
  rw [Text.occurs_iff, Text.occurs_iff, String.toList_append, String.toList_append,
    Text.infix_append_iff_of_last hlast (hafter.not_mem hlast'),
    Text.infix_append_iff_of_head hfirst (hbefore.not_mem hfirst')]

theorem isPhrase_of_mem (h : mark ∈ missingMarks ++ staleMarks) : IsPhrase mark := by
  simp only [missingMarks, staleMarks, marks, List.cons_append, List.nil_append, List.mem_cons,
    List.not_mem_nil, or_false] at h
  rcases h with rfl | rfl | rfl | rfl
  · exact ⟨⟨'(', rfl, by decide⟩, ')', rfl, by decide⟩
  · exact ⟨⟨'n', rfl, by decide⟩, 'd', rfl, by decide⟩
  · exact ⟨⟨'(', rfl, by decide⟩, ')', rfl, by decide⟩
  · exact ⟨⟨'t', rfl, by decide⟩, 'd', rfl, by decide⟩

/-- Blanks around the text change nothing. -/
theorem classify_surrounded {before after : String} (hbefore : AllBlank before.toList)
    (hafter : AllBlank after.toList) (status : Int) (text : String) :
    classify status (before ++ text ++ after) = classify status text := by
  have htrim : trim (before ++ text ++ after).toList = trim text.toList := by
    rw [String.toList_append, String.toList_append, Text.trim_surrounded hbefore hafter]
  have hreason : Failure.reason (before ++ text ++ after).toList = Failure.reason text.toList := by
    unfold Failure.reason
    rw [htrim]
  have htells : ∀ {marks}, marks ⊆ missingMarks ++ staleMarks →
      tells marks (before ++ text ++ after) = tells marks text := by
    intro marks hmarks
    rw [Bool.eq_iff_iff]
    simp only [tells, List.any_eq_true]
    refine exists_congr fun mark => and_congr_right fun hmark => ?_
    rw [mentions_surrounded (isPhrase_of_mem (hmarks hmark)) hbefore hafter]
  rw [classify_eq, classify_eq, htells (List.subset_append_left _ _),
    htells (List.subset_append_right _ _), hreason]
  unfold trimmed
  rw [htrim]

/-! ### Answers of the server -/

/-- The message after its reason. -/
def withReason (reason message : String) : String :=
  "(" ++ reason ++ "): " ++ message

/-- The text for an answer of the server. -/
def serverError (reason message : String) : String :=
  "Error from server " ++ withReason reason message

/-- There are no blanks in the text and no brackets. -/
def IsWord (word : String) : Prop :=
  ∀ c ∈ word.toList, isBlank c = false ∧ c ≠ '(' ∧ c ≠ ')'

instance : DecidablePred IsWord :=
  fun word => List.decidableBAll _ word.toList

theorem IsWord.open_not_mem (h : IsWord word) : '(' ∉ word.toList :=
  fun hmem => (h '(' hmem).2.1 rfl

theorem IsWord.close_not_mem (h : IsWord word) : ')' ∉ word.toList :=
  fun hmem => (h ')' hmem).2.2 rfl

theorem toList_withReason (reason message : String) :
    (withReason reason message).toList =
      '(' :: (reason.toList ++ ')' :: ':' :: ' ' :: message.toList) := by
  have hopen : "(".toList = ['('] := by decide
  have hclose : "): ".toList = [')', ':', ' '] := by decide
  simp only [withReason, String.toList_append, hopen, hclose, List.cons_append, List.nil_append,
    List.append_assoc]

theorem toList_serverError (reason message : String) :
    (serverError reason message).toList =
      (serverLead ++ [' ']) ++ (withReason reason message).toList := by
  have hlead : "Error from server ".toList = serverLead ++ [' '] := by decide
  unfold serverError
  rw [String.toList_append, hlead]

/-- A phrase that does not begin as the lead does is found after it. -/
theorem infix_serverError_iff {phrase : List Char} {first : Char}
    (hfirst : phrase.head? = some first) (hlead : first ∉ serverLead ++ [' ']) :
    phrase <:+: (serverError reason message).toList ↔
      phrase <:+: (withReason reason message).toList := by
  rw [toList_serverError, Text.infix_append_iff_of_head hfirst hlead]

/-- A bracketed word is the reason, or it stands in the message. -/
theorem mentions_bracketed (hreason : IsWord reason) (hword : IsWord word) (message : String) :
    mentions (serverError reason message) ("(" ++ word ++ ")") =
      (reason == word || mentions message ("(" ++ word ++ ")")) := by
  have hmark : ("(" ++ word ++ ")").toList = '(' :: (word.toList ++ [')']) := by
    have hopen : "(".toList = ['('] := by decide
    have hclose : ")".toList = [')'] := by decide
    simp only [String.toList_append, hopen, hclose, List.cons_append, List.nil_append]
  have hmiddle : '(' ∉ reason.toList ++ [')', ':', ' '] := by
    simp only [List.mem_append, not_or]
    exact ⟨hreason.open_not_mem, by decide⟩
  have hlater : '(' :: (word.toList ++ [')']) <:+: reason.toList ++ ')' :: ':' :: ' ' ::
      message.toList ↔ '(' :: (word.toList ++ [')']) <:+: message.toList := by
    have hsplit : reason.toList ++ ')' :: ':' :: ' ' :: message.toList =
        (reason.toList ++ [')', ':', ' ']) ++ message.toList := by
      simp
    rw [hsplit, Text.infix_append_iff_of_head rfl hmiddle]
  rw [Bool.eq_iff_iff, Bool.or_eq_true, beq_iff_eq]
  unfold mentions
  rw [Text.occurs_iff, Text.occurs_iff, hmark]
  calc '(' :: (word.toList ++ [')']) <:+: (serverError reason message).toList
    _ ↔ '(' :: (word.toList ++ [')']) <:+: (withReason reason message).toList :=
      infix_serverError_iff rfl (by decide)
    _ ↔ reason = word ∨ '(' :: (word.toList ++ [')']) <:+: message.toList := by
      rw [toList_withReason, List.infix_cons_iff, hlater, List.cons_prefix_cons,
        Text.closed_prefix_iff hword.close_not_mem hreason.close_not_mem, String.toList_inj]
      simp only [true_and, eq_comm]

/-- A phrase of several words stands in the message. -/
theorem mentions_phrase (hreason : IsWord reason) {first blank : Char}
    (hfirst : mark.toList.head? = some first) (hlead : first ∉ serverLead ++ [' '])
    (hother : first ∉ ['(', ':', ' ']) (hblank : blank ∈ mark.toList)
    (hblank' : isBlank blank = true) (hclosed : ')' ∉ mark.toList) (message : String) :
    mentions (serverError reason message) mark = mentions message mark := by
  have hopen : first ∉ ['('] := fun h => hother (List.mem_append_left [':', ' '] h)
  have hcolon : first ∉ [':', ' '] := fun h => hother (List.mem_cons_of_mem _ h)
  have hword : ¬ mark.toList <:+: reason.toList := by
    intro h
    have hsolid := (hreason blank (h.subset hblank)).1
    rw [hblank'] at hsolid
    cases hsolid
  rw [Bool.eq_iff_iff]
  unfold mentions
  rw [Text.occurs_iff, Text.occurs_iff]
  calc mark.toList <:+: (serverError reason message).toList
    _ ↔ mark.toList <:+: (withReason reason message).toList := infix_serverError_iff hfirst hlead
    _ ↔ mark.toList <:+: ['('] ++ reason.toList ∨
        mark.toList <:+: [':', ' '] ++ message.toList := by
      rw [toList_withReason, ← List.cons_append, Text.infix_split_iff hclosed]
      rfl
    _ ↔ mark.toList <:+: reason.toList ∨ mark.toList <:+: message.toList := by
      rw [Text.infix_append_iff_of_head hfirst hopen, Text.infix_append_iff_of_head hfirst hcolon]
    _ ↔ mark.toList <:+: message.toList := or_iff_right hword

theorem tells_serverError (hreason : IsWord reason) (hword : IsWord word)
    (hphrase : mentions (serverError reason message) mark = mentions message mark) :
    tells (marks word mark) (serverError reason message) =
      (reason == word || tells (marks word mark) message) := by
  simp only [tells, marks, List.any_cons, List.any_nil, Bool.or_false, hphrase,
    mentions_bracketed hreason hword, Bool.or_assoc]

theorem missing_serverError (hreason : IsWord reason) (message : String) :
    tells missingMarks (serverError reason message) =
      (reason == "NotFound" || tells missingMarks message) :=
  tells_serverError hreason (by decide) (mentions_phrase hreason rfl (by decide)
    (by decide) (List.mem_of_getElem? (i := 3) rfl) rfl (by decide) message)

theorem stale_serverError (hreason : IsWord reason) (message : String) :
    tells staleMarks (serverError reason message) =
      (reason == "Conflict" || tells staleMarks message) :=
  tells_serverError hreason (by decide) (mentions_phrase hreason rfl (by decide)
    (by decide) (List.mem_of_getElem? (i := 3) rfl) rfl (by decide) message)

theorem trim_serverError (reason message : String) :
    trim (serverError reason message).toList =
      serverLead ++ ' ' :: trim (withReason reason message).toList := by
  obtain ⟨lead, hlead⟩ : ∃ lead, serverLead = 'E' :: lead := ⟨serverLead.tail, by decide⟩
  rw [toList_serverError, toList_withReason, hlead, List.cons_append,
    Text.trim_append (by decide) (by decide)]
  simp

theorem trim_withReason (reason message : String) :
    trim (withReason reason message).toList =
      '(' :: (reason.toList ++ ')' :: ':' :: Text.trimRight (' ' :: message.toList)) := by
  have hsplit : '(' :: (reason.toList ++ ')' :: ':' :: ' ' :: message.toList) =
      ('(' :: reason.toList ++ [')']) ++ ':' :: ' ' :: message.toList := by
    simp
  rw [toList_withReason, Text.trim_cons (by decide), hsplit,
    Text.trimRight_append_cons (by decide)]
  simp

/-- What follows a bracketed word is the message, if the word is the reason. -/
theorem after?_withReason (hreason : IsWord reason) (hword : IsWord word) (message : String) :
    after? ('(' :: (word.toList ++ [')', ':'])) (trim (withReason reason message).toList) =
      if reason = word then some (Text.trimRight (' ' :: message.toList)) else none := by
  rw [trim_withReason]
  split
  · rename_i heq
    subst heq
    have hsplit : '(' :: (reason.toList ++ ')' :: ':' :: Text.trimRight (' ' :: message.toList)) =
        '(' :: (reason.toList ++ [')', ':']) ++ Text.trimRight (' ' :: message.toList) := by
      simp
    rw [hsplit, Text.after?_append]
  · rename_i hne
    refine Text.after?_eq_none fun hstart => hne ?_
    have hshort : word.toList ++ [')'] <+:
        reason.toList ++ ')' :: ':' :: Text.trimRight (' ' :: message.toList) := by
      refine List.IsPrefix.trans ⟨[':'], ?_⟩ (List.cons_prefix_cons.mp hstart).2
      simp
    have hlist : word.toList = reason.toList :=
      (Text.closed_prefix_iff hword.close_not_mem hreason.close_not_mem).mp hshort
    exact (String.toList_inj.mp hlist).symm

/-- What a failure keeps of an answer of the server. -/
def kept (reason message : String) : String :=
  if reason = "NotFound" ∨ reason = "Conflict" then message
  else trimmed (withReason reason message)

theorem reason_serverError (hreason : IsWord reason) (hmessage : trimmed message = message) :
    String.ofList (Failure.reason (serverError reason message).toList) = kept reason message := by
  have hbody : trim (dropLeading serverLead (trim (serverError reason message).toList)) =
      trim (withReason reason message).toList := by
    have hlead : ¬ serverLead <+: ' ' :: trim (withReason reason message).toList := by
      intro hstart
      have hfirst : serverLead = 'E' :: serverLead.tail := by decide
      rw [hfirst] at hstart
      exact absurd (List.cons_prefix_cons.mp hstart).1 (by decide)
    rw [trim_serverError, Text.dropLeading_append (by decide) hlead,
      Text.trim_cons_of_blank (by decide), Text.trim_trim]
  have hmissing : "(NotFound):".toList = '(' :: ("NotFound".toList ++ [')', ':']) := by decide
  have hstale : "(Conflict):".toList = '(' :: ("Conflict".toList ++ [')', ':']) := by decide
  have hrest : String.ofList (trim (Text.trimRight (' ' :: message.toList))) = message := by
    rw [Text.trim_trimRight, Text.trim_cons_of_blank (by decide)]
    exact hmessage
  unfold Failure.reason kept
  dsimp only
  rw [hbody, hmissing, hstale, after?_withReason hreason (by decide),
    after?_withReason hreason (by decide)]
  by_cases hnotFound : reason = "NotFound"
  · subst hnotFound
    simpa using hrest
  · by_cases hconflict : reason = "Conflict"
    · subst hconflict
      simpa using hrest
    · rw [if_neg hnotFound, if_neg hconflict, if_neg (not_or.mpr ⟨hnotFound, hconflict⟩)]
      exact congrArg String.ofList (Text.trim_trim _)

/-- **Failures are told apart by phrases in the whole text.**  Blanks around a text do not matter.
    An answer of the server tells of a missing object if this is its reason, or if its message
    holds a phrase for it; otherwise it tells of a conflict if that is its reason, or if its
    message holds a phrase for that; any other answer is kept with all its text. -/
theorem server_errors_are_told_apart (hreason : IsWord reason)
    (hmessage : trimmed message = message) {before after : String}
    (hbefore : AllBlank before.toList) (hafter : AllBlank after.toList) (status : Int) :
    (∀ text, classify status (before ++ text ++ after) = classify status text) ∧
      classify status (serverError reason message) =
        (if reason = "NotFound" ∨ tells missingMarks message then .notFound (kept reason message)
        else if reason = "Conflict" ∨ tells staleMarks message then .conflict (kept reason message)
        else .command status (trimmed (serverError reason message))) ∧
      ((classify status (serverError reason message)).isConflict ↔
        ¬ (reason = "NotFound" ∨ tells missingMarks message) ∧
          (reason = "Conflict" ∨ tells staleMarks message)) := by
  have hclassify : classify status (serverError reason message) =
      (if reason = "NotFound" ∨ tells missingMarks message then .notFound (kept reason message)
      else if reason = "Conflict" ∨ tells staleMarks message then .conflict (kept reason message)
      else .command status (trimmed (serverError reason message))) := by
    rw [classify_eq, missing_serverError hreason, stale_serverError hreason,
      reason_serverError hreason hmessage]
    simp only [Bool.or_eq_true, beq_iff_eq]
  refine ⟨classify_surrounded hbefore hafter status, hclassify, ?_⟩
  rw [hclassify]
  split
  · rename_i hmissing
    simp [isConflict, hmissing]
  · rename_i hmissing
    split
    · rename_i hstale
      exact iff_of_true rfl ⟨hmissing, hstale⟩
    · rename_i hstale
      exact iff_of_false (by simp [isConflict]) fun h => hstale h.2

/-- An update that was too late is told of with blanks around. -/
theorem server_errors_are_told_apart_after_conflict :
    let message := "the object has been modified"
    let text := serverError "Conflict" message
    IsWord "Conflict" ∧ trimmed message = message ∧ AllBlank "\n".toList ∧
      classify 1 ("\n" ++ text ++ "\n") = .conflict message ∧
      (classify 1 text).isConflict = true := by
  intro message text
  have hreason : IsWord "Conflict" := by decide
  have hmessage : trimmed message = message := by decide +kernel
  have hblank : AllBlank "\n".toList := by decide
  obtain ⟨hsurrounded, hclassify, hconflict⟩ :=
    server_errors_are_told_apart hreason hmessage hblank hblank 1
  have hmissing : ¬ ("Conflict" = "NotFound" ∨ tells missingMarks message = true) := by
    decide +kernel
  refine ⟨hreason, hmessage, hblank, ?_, hconflict.mpr ⟨hmissing, .inl rfl⟩⟩
  rw [hsurrounded, hclassify, if_neg hmissing, if_pos (.inl rfl)]
  rfl

/-- A request that was refused looks as if there were no object, since its message is about another
    one that is missing; and after such a message a conflict is no conflict. -/
theorem message_overrules_reason :
    let refused := "pods is forbidden: serviceaccount not found"
    let late := "cannot be fulfilled: node not found"
    (IsWord "Forbidden" ∧ IsWord "Conflict") ∧
      (trimmed refused = refused ∧ trimmed late = late) ∧
      classify 1 (serverError "Forbidden" refused) = .notFound (withReason "Forbidden" refused) ∧
      classify 1 (serverError "Conflict" late) = .notFound late := by
  intro refused late
  have hforbidden : IsWord "Forbidden" := by decide
  have hconflict : IsWord "Conflict" := by decide
  have hrefused : trimmed refused = refused := by decide +kernel
  have hlate : trimmed late = late := by decide +kernel
  have hkept : kept "Forbidden" refused = withReason "Forbidden" refused := by decide +kernel
  have hfound : tells missingMarks refused = true ∧ tells missingMarks late = true := by
    decide +kernel
  refine ⟨⟨hforbidden, hconflict⟩, ⟨hrefused, hlate⟩, ?_, ?_⟩
  · rw [classify_eq, missing_serverError hforbidden, hfound.1, Bool.or_true, if_pos rfl,
      reason_serverError hforbidden hrefused, hkept]
  · rw [classify_eq, missing_serverError hconflict, hfound.2, Bool.or_true, if_pos rfl,
      reason_serverError hconflict hlate]
    rfl

end ClusterAgent.Cluster.Failure
