/-
  ClusterAgent/Proofs/Handler/Retrying.lean
  =========================================
  **How a replacement is tried again.**

  A replacement talks to the cluster in turns: it offers an object, and after a conflict it
  pauses, reads the object and makes its next offer of what it has read.  `Follows` is the
  grammar of this talk and `Ends` says what the last exchange comes to.  Before each offer
  the talk has come to a `Standing`; one turn keeps it (`Standing.turn`), and so the whole
  talk obeys the grammar whatever is replied (`retries_on_conflict`).
-/
import ClusterAgent.Handler.Retry
import ClusterAgent.Proofs.Handler.Conversation
import Mathlib.Algebra.BigOperators.Group.List.Basic
import Mathlib.Algebra.Order.Ring.Nat

namespace ClusterAgent.Handler

open Cluster (Failure objectName)

/-! ### What is said -/

namespace Exchange

def replace (kind : Kind) (object : Json) (reply : Except Failure Json) : Exchange :=
  ⟨.cluster (.replace kind object), reply⟩

def get (kind : Kind) (ns name : String) (reply : Except Failure Json) : Exchange :=
  ⟨.cluster (.get kind ns name), reply⟩

def pause (ms : Nat) : Exchange :=
  ⟨.pause ms, ()⟩

def isReplace (e : Exchange) : Bool :=
  match e.act with
  | .cluster (.replace _ _) => true
  | _ => false

def isGet (e : Exchange) : Bool :=
  match e.act with
  | .cluster (.get _ _ _) => true
  | _ => false

/-- The milliseconds that pass, if this is a pause. -/
def ms (e : Exchange) : Nat :=
  match e.act with
  | .pause ms => ms
  | _ => 0

end Exchange

/-- How many objects were offered. -/
def offerCount (said : List Exchange) : Nat :=
  said.countP Exchange.isReplace

/-- How often the object was read. -/
def readCount (said : List Exchange) : Nat :=
  said.countP Exchange.isGet

/-- The milliseconds that were spent in pauses. -/
def pauseTime (said : List Exchange) : Nat :=
  (said.map Exchange.ms).sum

section Grammar

variable (kind : Kind) (ns : String) (build : Option Json → Json)

/-- What may be said after what was said before. -/
inductive Follows : List Exchange → Exchange → Prop where
  | first (reply : Except Failure Json) : Follows [] (.replace kind (build none) reply)
  /-- Only a conflict is followed by anything. -/
  | pause (before : List Exchange) (object : Json) (conflict : Failure)
      (h : conflict.isConflict = true) :
      Follows (before ++ [.replace kind object (.error conflict)])
        (.pause (backoff (offerCount before)))
  /-- What is read is named by the object that was offered. -/
  | read (before : List Exchange) (object : Json) (conflict : Failure) (ms : Nat)
      (reply : Except Failure Json) :
      Follows (before ++ [.replace kind object (.error conflict), .pause ms])
        (.get kind ns (objectName object) reply)
  /-- The next offer is made of what was just read. -/
  | again (before : List Exchange) (name : String) (latest : Json) (reply : Except Failure Json) :
      Follows (before ++ [.get kind ns name (.ok latest)])
        (.replace kind (build (some latest)) reply)

/-- What the talk comes to, by its last exchange. -/
inductive Ends : List Exchange → Except UpdateFailure Json → Prop where
  | accepted (before : List Exchange) (object stored : Json) :
      Ends (before ++ [.replace kind object (.ok stored)]) (.ok stored)
  /-- A failure that is no conflict, or the conflict of the fifth attempt. -/
  | refused (before : List Exchange) (object : Json) (failure : Failure)
      (h : failure.isConflict = false ∨ offerCount before + 1 = 5) :
      Ends (before ++ [.replace kind object (.error failure)]) (.error (.replacing failure))
  | unread (before : List Exchange) (name : String) (failure : Failure) :
      Ends (before ++ [.get kind ns name (.error failure)]) (.error (.reading failure))

end Grammar

/-! ### One turn -/

section Turns

variable {α : Type} {partner : Partner} {past : List Exchange}

theorem converse_replace {kind : Kind} {object : Json} {next : Except Failure Json → Program α}
    {reply : Except Failure Json} (h : partner past (.cluster (.replace kind object)) = reply) :
    (Program.ask (.cluster (.replace kind object)) next).converse partner past =
      (Exchange.replace kind object reply).andThen
        ((next reply).converse partner (past ++ [.replace kind object reply])) := by
  rw [← h]
  rfl

theorem converse_get {kind : Kind} {ns name : String} {next : Except Failure Json → Program α}
    {reply : Except Failure Json} (h : partner past (.cluster (.get kind ns name)) = reply) :
    (Program.ask (.cluster (.get kind ns name)) next).converse partner past =
      (Exchange.get kind ns name reply).andThen
        ((next reply).converse partner (past ++ [.get kind ns name reply])) := by
  rw [← h]
  rfl

theorem converse_pause {ms : Nat} {next : (Act.pause ms).Reply → Program α} :
    (Program.ask (.pause ms) next).converse partner past =
      (Exchange.pause ms).andThen ((next ()).converse partner (past ++ [.pause ms])) := rfl

/-- What is said in a turn whose offer meets a conflict. -/
def conflictTurn (kind : Kind) (ns : String) (attempt : Nat) (candidate : Json) (conflict : Failure)
    (reply : Except Failure Json) : List Exchange :=
  [.replace kind candidate (.error conflict), .pause (backoff attempt),
    .get kind ns (objectName candidate) reply]

theorem offerCount_turn (past : List Exchange) (kind : Kind) (ns : String) (attempt : Nat)
    (candidate : Json) (conflict : Failure) (reply : Except Failure Json) :
    offerCount (past ++ conflictTurn kind ns attempt candidate conflict reply) =
      offerCount past + 1 :=
  List.countP_append

theorem readCount_turn (past : List Exchange) (kind : Kind) (ns : String) (attempt : Nat)
    (candidate : Json) (conflict : Failure) (reply : Except Failure Json) :
    readCount (past ++ conflictTurn kind ns attempt candidate conflict reply) =
      readCount past + 1 :=
  List.countP_append

/-- The four ways a turn can go: the offer is accepted, it is refused for good, the object cannot be
    read after the conflict, or the next turn follows. -/
theorem turn_cases (kind : Kind) (ns : String) (build : Option Json → Json) (partner : Partner)
    (past : List Exchange) (left : Nat) (candidate : Json) :
    let talk := (replaceFrom kind ns build left candidate).converse partner past
    (∃ stored, talk = ([.replace kind candidate (.ok stored)], .ok (.ok stored))) ∨
    (∃ failure, (failure.isConflict = false ∨ left = 0) ∧
      talk = ([.replace kind candidate (.error failure)], .ok (.error (.replacing failure)))) ∨
    (∃ rest conflict failure, left = rest + 1 ∧ conflict.isConflict = true ∧
      talk = (conflictTurn kind ns (conflictAttempts - 2 - rest) candidate conflict (.error failure),
        .ok (.error (.reading failure)))) ∨
    ∃ rest conflict latest, left = rest + 1 ∧ conflict.isConflict = true ∧
      let said := conflictTurn kind ns (conflictAttempts - 2 - rest) candidate conflict (.ok latest)
      let later :=
        (replaceFrom kind ns build rest (build (some latest))).converse partner (past ++ said)
      talk = (said ++ later.1, later.2) := by
  intro talk
  have htalk : talk = (replaceFrom kind ns build left candidate).converse partner past := rfl
  rw [replaceFrom] at htalk
  obtain ⟨reply, hreplace⟩ : ∃ reply : Except Failure Json,
      partner past (.cluster (.replace kind candidate)) = reply := ⟨_, rfl⟩
  rcases reply with conflict | stored
  · rw [converse_replace hreplace] at htalk
    cases hconflict : conflict.isConflict with
    | false =>
      refine .inr (.inl ⟨conflict, .inl hconflict, htalk.trans ?_⟩)
      simp only [hconflict]
      rfl
    | true =>
      rcases left with _ | rest
      · refine .inr (.inl ⟨conflict, .inr rfl, htalk.trans ?_⟩)
        simp only [hconflict, if_true]
        rfl
      · simp only [hconflict, if_true] at htalk
        rw [converse_pause] at htalk
        obtain ⟨reply, hget⟩ : ∃ reply : Except Failure Json,
            partner (past ++ [.replace kind candidate (.error conflict)] ++
              [.pause (backoff (conflictAttempts - 2 - rest))])
              (.cluster (.get kind ns (objectName candidate))) = reply := ⟨_, rfl⟩
        rw [converse_get hget] at htalk
        rcases reply with failure | latest
        · exact .inr (.inr (.inl ⟨rest, conflict, failure, rfl, hconflict, htalk⟩))
        · refine .inr (.inr (.inr ⟨rest, conflict, latest, rfl, hconflict, htalk.trans ?_⟩))
          simp only [conflictTurn, List.append_assoc]
          rfl
  · rw [converse_replace hreplace] at htalk
    exact .inl ⟨stored, htalk⟩

end Turns

/-! ### The whole talk -/

section Talk

variable {kind : Kind} {ns : String} {build : Option Json → Json} {partner : Partner}
  {past : List Exchange} {attempt : Nat} {latest : Option Json}

/-- Where the talk stands before the offer of an attempt, counted from zero, that is made of the
    object read last. -/
structure Standing (kind : Kind) (ns : String) (past : List Exchange) (attempt : Nat)
    (latest : Option Json) : Prop where
  offers : offerCount past = attempt
  readings : readCount past = attempt
  slept : pauseTime past = 10 * (2 ^ attempt - 1)
  latest : (past = [] ∧ latest = none) ∨
    ∃ before name object, past = before ++ [.get kind ns name (.ok object)] ∧ latest = some object

theorem standing_start (kind : Kind) (ns : String) : Standing kind ns [] 0 none :=
  ⟨rfl, rfl, rfl, .inl ⟨rfl, rfl⟩⟩

/-- A turn that ends with an object read leads to the next attempt. -/
theorem Standing.turn (h : Standing kind ns past attempt latest) (candidate : Json)
    (conflict : Failure) (object : Json) :
    Standing kind ns (past ++ conflictTurn kind ns attempt candidate conflict (.ok object)) (attempt + 1)
      (some object) := by
  constructor
  · rw [offerCount_turn, h.offers]
  · rw [readCount_turn, h.readings]
  · have hslept := h.slept
    have hpositive : 1 ≤ 2 ^ attempt := Nat.one_le_two_pow
    have hturn : (conflictTurn kind ns attempt candidate conflict (.ok object)).map Exchange.ms =
        [0, 10 * 2 ^ attempt, 0] := rfl
    unfold pauseTime at hslept ⊢
    rw [List.map_append, List.sum_append, hslept, hturn, pow_succ]
    simp only [List.sum_cons, List.sum_nil]
    omega
  · exact .inr ⟨past ++ [.replace kind candidate (.error conflict), .pause (backoff attempt)],
      objectName candidate, object, by simp [conflictTurn], rfl⟩

theorem Standing.follows (h : Standing kind ns past attempt latest) (reply : Except Failure Json) :
    Follows kind ns build past (.replace kind (build latest) reply) := by
  rcases h.latest with ⟨rfl, rfl⟩ | ⟨before, name, object, rfl, rfl⟩
  · exact .first reply
  · exact .again before name object reply

/-- What holds of an exchange, given what was said before it. -/
structure Lawful (kind : Kind) (ns : String) (build : Option Json → Json) (past : List Exchange)
    (e : Exchange) : Prop where
  follows : Follows kind ns build past e
  slept : e.isReplace = true → pauseTime past = 10 * (2 ^ offerCount past - 1)

theorem Standing.lawful (h : Standing kind ns past attempt latest) (reply : Except Failure Json) :
    Lawful kind ns build past (.replace kind (build latest) reply) :=
  ⟨h.follows reply, fun _ => h.offers.symm ▸ h.slept⟩

/-- The pause after a conflict and the read after the pause obey the grammar. -/
theorem Standing.each_turn (h : Standing kind ns past attempt latest) {conflict : Failure}
    (hconflict : conflict.isConflict = true) (reply : Except Failure Json)
    {later : List Exchange}
    (hlater : Each (Lawful kind ns build)
      (past ++ conflictTurn kind ns attempt (build latest) conflict reply) later) :
    Each (Lawful kind ns build) past
      (conflictTurn kind ns attempt (build latest) conflict reply ++ later) := by
  have hpause : Follows kind ns build (past ++ [.replace kind (build latest) (.error conflict)])
      (.pause (backoff attempt)) :=
    h.offers ▸ .pause past (build latest) conflict hconflict
  have hread : Follows kind ns build
      (past ++ [.replace kind (build latest) (.error conflict), .pause (backoff attempt)])
      (.get kind ns (objectName (build latest)) reply) := .read past _ conflict _ reply
  refine ⟨h.lawful _, ⟨hpause, nofun⟩, ⟨?_, nofun⟩, ?_⟩
  · simpa using hread
  · simpa [conflictTurn] using hlater

/-- What a talk has come to when it ends. -/
structure Retried (kind : Kind) (ns : String) (build : Option Json → Json)
    (past said : List Exchange) (result : Except UpdateFailure Json) : Prop where
  each : Each (Lawful kind ns build) past said
  ends : Ends kind ns (past ++ said) result
  offers : offerCount (past ++ said) ≤ 5
  readings : readCount (past ++ said) ≤ 4

/-- One more offer after which nothing more is said. -/
theorem Standing.retried_last (h : Standing kind ns past attempt latest)
    (hattempt : attempt < conflictAttempts) {reply : Except Failure Json}
    {result : Except UpdateFailure Json}
    (hends : Ends kind ns (past ++ [.replace kind (build latest) reply]) result) :
    Retried kind ns build past [.replace kind (build latest) reply] result := by
  have hoffers := h.offers
  have hreadings := h.readings
  unfold conflictAttempts at hattempt
  refine ⟨⟨h.lawful reply, trivial⟩, hends, ?_, ?_⟩
  · have hlast : [Exchange.replace kind (build latest) reply].countP Exchange.isReplace = 1 := rfl
    unfold offerCount at hoffers ⊢
    rw [List.countP_append, hoffers, hlast]
    omega
  · have hlast : [Exchange.replace kind (build latest) reply].countP Exchange.isGet = 0 := rfl
    unfold readCount at hreadings ⊢
    rw [List.countP_append, hreadings, hlast]
    omega

theorem Retried.lawful {said before after : List Exchange} {result : Except UpdateFailure Json}
    {e : Exchange} (h : Retried kind ns build [] said result) (hsaid : said = before ++ e :: after) :
    Lawful kind ns build before e := by
  have heach := h.each
  rw [hsaid] at heach
  exact heach.of_append

/-- From every standing the talk goes on by the grammar and comes to an end. -/
theorem Standing.converse {left : Nat} (h : Standing kind ns past attempt latest)
    (hleft : attempt + left + 1 = conflictAttempts) :
    ∃ said result,
      (replaceFrom kind ns build left (build latest)).converse partner past = (said, .ok result) ∧
        Retried kind ns build past said result := by
  induction left using Nat.strong_induction_on generalizing past attempt latest with
  | _ left ih =>
    have hattempt : attempt < conflictAttempts := by omega
    rcases turn_cases kind ns build partner past left (build latest) with
      ⟨stored, htalk⟩ | ⟨failure, hfailure, htalk⟩ |
      ⟨rest, conflict, failure, rfl, hconflict, htalk⟩ |
      ⟨rest, conflict, object, rfl, hconflict, htalk⟩
    · exact ⟨_, _, htalk, h.retried_last hattempt (.accepted past _ stored)⟩
    · have hlast : failure.isConflict = false ∨ offerCount past + 1 = 5 := by
        rcases hfailure with hfailure | rfl
        · exact .inl hfailure
        · exact .inr (h.offers.symm ▸ hleft)
      exact ⟨_, _, htalk, h.retried_last hattempt (.refused past _ failure hlast)⟩
    · have hnumber : conflictAttempts - 2 - rest = attempt := by omega
      rw [hnumber] at htalk
      refine ⟨_, _, htalk, ?_⟩
      constructor
      · have heach : Each (Lawful kind ns build) past
            (conflictTurn kind ns attempt (build latest) conflict (.error failure) ++ []) :=
          h.each_turn hconflict (.error failure) trivial
        rwa [List.append_nil] at heach
      · have hends : Ends kind ns
            ((past ++ [.replace kind (build latest) (.error conflict), .pause (backoff attempt)]) ++
              [.get kind ns (objectName (build latest)) (.error failure)])
            (.error (.reading failure)) := .unread _ _ failure
        simpa [conflictTurn] using hends
      · rw [offerCount_turn, h.offers]
        exact hattempt
      · rw [readCount_turn, h.readings]
        unfold conflictAttempts at hleft
        omega
    · have hnumber : conflictAttempts - 2 - rest = attempt := by omega
      have hnext := h.turn (build latest) conflict object
      obtain ⟨said, result, hlater, hretried⟩ :=
        ih rest (Nat.lt_succ_self rest) hnext (by omega)
      simp only [hnumber, hlater] at htalk
      refine ⟨_, _, htalk, ?_⟩
      constructor
      · exact h.each_turn hconflict _ hretried.each
      · rw [← List.append_assoc]
        exact hretried.ends
      · rw [← List.append_assoc]
        exact hretried.offers
      · rw [← List.append_assoc]
        exact hretried.readings

theorem converse_retryOnConflict (kind : Kind) (ns : String) (build : Option Json → Json)
    (partner : Partner) :
    ∃ said result, (retryOnConflict kind ns build).converse partner [] = (said, .ok result) ∧
      Retried kind ns build [] said result :=
  (standing_start kind ns).converse rfl

/-- Only a conflict, a pause and the object that was read are followed by anything. -/
def GoesOn (kind : Kind) (ns : String) (e : Exchange) : Prop :=
  (∃ object conflict, e = .replace kind object (.error conflict) ∧ conflict.isConflict = true) ∨
    (∃ ms, e = .pause ms) ∨ ∃ name object, e = .get kind ns name (.ok object)

theorem Follows.goesOn {e next : Exchange} {before : List Exchange}
    (h : Follows kind ns build (before ++ [e]) next) : GoesOn kind ns e := by
  generalize hpast : before ++ [e] = past at h
  have hlast := congrArg List.getLast? hpast
  cases h with
  | first reply => simp at hpast
  | pause earlier object conflict hconflict =>
    simp only [List.getLast?_append, List.getLast?_singleton, Option.some_or] at hlast
    exact .inl ⟨object, conflict, Option.some.inj hlast, hconflict⟩
  | read earlier object conflict ms reply =>
    simp only [List.getLast?_append, List.getLast?_singleton, Option.some_or] at hlast
    exact .inr (.inl ⟨ms, Option.some.inj hlast⟩)
  | again earlier name object reply =>
    simp only [List.getLast?_append, List.getLast?_singleton, Option.some_or] at hlast
    exact .inr (.inr ⟨name, object, Option.some.inj hlast⟩)

/-- A read comes after the conflict and the pause of the object that it names. -/
theorem Follows.get_cases {before : List Exchange} {kind' : Kind} {ns' name : String}
    {reply : Except Failure Json} (h : Follows kind ns build before (.get kind' ns' name reply)) :
    kind' = kind ∧ ns' = ns ∧ ∃ earlier object conflict ms,
      before = earlier ++ [.replace kind object (.error conflict), .pause ms] ∧
        name = objectName object := by
  generalize he : Exchange.get kind' ns' name reply = e at h
  have hact := congrArg Exchange.act he
  cases h with
  | first reply' | pause earlier object conflict hconflict | again earlier name' latest reply' =>
    cases hact
  | read earlier object conflict ms reply' =>
    cases hact
    exact ⟨rfl, rfl, earlier, object, conflict, ms, rfl, rfl⟩

/-- An offer is made of nothing and comes first, or is made of the object that was read right
    before it. -/
theorem Follows.replace_cases {before : List Exchange} {kind' : Kind} {object : Json}
    {reply : Except Failure Json} (h : Follows kind ns build before (.replace kind' object reply)) :
    kind' = kind ∧ ((before = [] ∧ object = build none) ∨ ∃ earlier name latest,
      before = earlier ++ [.get kind ns name (.ok latest)] ∧ object = build (some latest)) := by
  generalize he : Exchange.replace kind' object reply = e at h
  have hact := congrArg Exchange.act he
  cases h with
  | first reply' =>
    cases hact
    exact ⟨rfl, .inl ⟨rfl, rfl⟩⟩
  | pause earlier object' conflict hconflict | read earlier object' conflict ms reply' =>
    cases hact
  | again earlier name latest reply' =>
    cases hact
    exact ⟨rfl, .inr ⟨earlier, name, latest, rfl, rfl⟩⟩

/-- A replacement that is tried again after conflicts: all that is said, and what it comes to. -/
structure TriesAgain (kind : Kind) (ns : String) (build : Option Json → Json)
    (said : List Exchange) (result : Except UpdateFailure Json) : Prop where
  offers : offerCount said ≤ 5
  readings : readCount said ≤ 4
  /-- Everything said follows what was said before it. -/
  follows : ∀ before e after, said = before ++ e :: after → Follows kind ns build before e
  /-- After an offer that was accepted, or refused for another reason than a conflict, nothing is
      said, and neither is after a read that failed. -/
  goesOn : ∀ before e next after, said = before ++ e :: next :: after → GoesOn kind ns e
  /-- The pauses before an offer double. -/
  slept : ∀ before object reply after, said = before ++ .replace kind object reply :: after →
    pauseTime before = 10 * (2 ^ offerCount before - 1) ∧ pauseTime before ≤ 150
  ends : Ends kind ns said result

end Talk

/-- **A replacement is tried again after conflicts, and only then.**  Whoever answers, and whatever
    the offers are made of: there are five offers at most and four reads, the first offer is made of
    nothing and every other one of the object that was read right before it.  The first offer that
    is accepted is the result.  A failed read gives a failure to read, and so does, as a failure to
    update, a refusal for another reason than a conflict or the conflict of the fifth offer; nothing
    is asked after any of these.  The pauses before the offer that follows `k` others last
    `10 * (2 ^ k - 1)` milliseconds in all. -/
theorem retries_on_conflict (kind : Kind) (ns : String) (build : Option Json → Json)
    (partner : Partner) :
    ∃ said result,
      (retryOnConflict kind ns build).converse partner [] = (said, .ok result) ∧
        TriesAgain kind ns build said result ∧
        ∀ failure, (UpdateFailure.reading failure).response =
            Response.error .getError failure.message ∧
          (UpdateFailure.replacing failure).response =
            Response.error .updateError failure.message := by
  obtain ⟨said, result, htalk, hretried⟩ := converse_retryOnConflict kind ns build partner
  refine ⟨said, result, htalk, ?_, fun failure => ⟨rfl, rfl⟩⟩
  constructor
  · exact hretried.offers
  · exact hretried.readings
  · intro before e after h
    exact (hretried.lawful h).follows
  · intro before e next after h
    have hnext : said = (before ++ [e]) ++ next :: after := by simp [h]
    exact (hretried.lawful hnext).follows.goesOn
  · intro before object reply after h
    have hslept := (hretried.lawful h).slept rfl
    refine ⟨hslept, ?_⟩
    -- This offer is one of five at most, so no more than four came before it.
    have hoffers : offerCount ([] ++ said) ≤ 5 := hretried.offers
    have hsaid : offerCount ([] ++ said) = offerCount before + (offerCount after + 1) := by
      rw [h, List.nil_append, offerCount, List.countP_append]
      exact congrArg _ (List.countP_cons_of_pos rfl)
    have hbefore : offerCount before ≤ 4 := by omega
    rw [hslept]
    have hpower : 2 ^ offerCount before ≤ 2 ^ 4 := Nat.pow_le_pow_right (by decide) hbefore
    omega
  · exact hretried.ends

end ClusterAgent.Handler
