/-
  ClusterAgent/Proofs/Text/Trimming.lean
  ======================================
  **The blanks around a text, and the phrases in it.**

  Trimming takes blanks from both ends of a text and nothing else, so that it does not
  matter how many there are (`trim_surrounded`).  A phrase is looked for everywhere in a
  text, yet it cannot begin where its first character is missing, nor end where its last
  is, nor go beyond a character that it lacks.
-/
import ClusterAgent.Text.Blank
import Mathlib.Data.List.Infix
import Mathlib.Data.List.TakeWhile

namespace ClusterAgent.Text

variable {needle cs a b : List Char} {c : Char}

/-! ### Trimming -/

/-- There are only blanks. -/
def AllBlank (cs : List Char) : Prop :=
  ∀ c ∈ cs, isBlank c = true

instance : DecidablePred AllBlank :=
  fun cs => List.decidableBAll _ cs

theorem AllBlank.not_mem (h : AllBlank cs) (hc : isBlank c = false) : c ∉ cs := by
  intro hmem
  rw [h c hmem] at hc
  cases hc

theorem allBlank_nil : AllBlank [] :=
  List.forall_mem_nil _

theorem trimLeft_append_of_blank (h : AllBlank a) : trimLeft (a ++ b) = trimLeft b :=
  List.dropWhile_append_of_pos h

theorem trimRight_append_of_blank (h : AllBlank b) : trimRight (a ++ b) = trimRight a := by
  have hreverse : ∀ c ∈ b.reverse, isBlank c = true := fun c hc => h c (List.mem_reverse.mp hc)
  unfold trimRight
  rw [List.reverse_append, List.dropWhile_append_of_pos hreverse]

theorem trimLeft_eq_nil (h : AllBlank b) : trimLeft b = [] :=
  List.dropWhile_eq_nil_iff.mpr h

/-- Blanks at both ends do not matter. -/
theorem trim_surrounded (ha : AllBlank a) (hb : AllBlank b) (cs : List Char) :
    trim (a ++ cs ++ b) = trim cs := by
  unfold trim
  rw [List.append_assoc, trimLeft_append_of_blank ha]
  cases hempty : (trimLeft cs).isEmpty with
  | true =>
    have hnil : trimLeft cs = [] := List.isEmpty_iff.mp hempty
    have hboth : trimLeft (cs ++ b) = [] := by
      have happend : trimLeft (cs ++ b) = trimLeft b := by
        unfold trimLeft at hnil ⊢
        rw [List.dropWhile_append, hnil]
        rfl
      rw [happend, trimLeft_eq_nil hb]
    rw [hboth, hnil]
  | false =>
    have happend : trimLeft (cs ++ b) = trimLeft cs ++ b := by
      unfold trimLeft at hempty ⊢
      rw [List.dropWhile_append, hempty]
      rfl
    rw [happend, trimRight_append_of_blank hb]

theorem trim_trimLeft (cs : List Char) : trim (trimLeft cs) = trim cs := by
  have hblank : AllBlank (cs.takeWhile isBlank) := fun c hc => List.mem_takeWhile_imp hc
  have hcs : cs.takeWhile isBlank ++ trimLeft cs ++ [] = cs := by
    rw [List.append_nil]
    exact List.takeWhile_append_dropWhile
  calc trim (trimLeft cs) = trim (cs.takeWhile isBlank ++ trimLeft cs ++ []) :=
        (trim_surrounded hblank allBlank_nil _).symm
    _ = trim cs := by rw [hcs]

theorem trim_trimRight (cs : List Char) : trim (trimRight cs) = trim cs := by
  have hblank : AllBlank (cs.reverse.takeWhile isBlank).reverse :=
    fun c hc => List.mem_takeWhile_imp (List.mem_reverse.mp hc)
  have hcs : [] ++ trimRight cs ++ (cs.reverse.takeWhile isBlank).reverse = cs := by
    unfold trimRight
    rw [List.nil_append, ← List.reverse_append, List.takeWhile_append_dropWhile,
      List.reverse_reverse]
  calc trim (trimRight cs) = trim ([] ++ trimRight cs ++ (cs.reverse.takeWhile isBlank).reverse) :=
        (trim_surrounded allBlank_nil hblank _).symm
    _ = trim cs := by rw [hcs]

theorem trim_trim (cs : List Char) : trim (trim cs) = trim cs :=
  (trim_trimRight (trimLeft cs)).trans (trim_trimLeft cs)

theorem trim_cons (h : isBlank c = false) : trim (c :: cs) = trimRight (c :: cs) := by
  have hleft : trimLeft (c :: cs) = c :: cs := List.dropWhile_cons_of_neg (by simp [h])
  unfold trim
  rw [hleft]

theorem trim_cons_of_blank (h : isBlank c = true) : trim (c :: cs) = trim cs := by
  unfold trim trimLeft
  rw [List.dropWhile_cons_of_pos h]

/-- Nothing is taken away before a character that is not blank. -/
theorem trimRight_append_cons (h : isBlank c = false) (a b : List Char) :
    trimRight (a ++ c :: b) = a ++ c :: trimRight b := by
  have hstop : (c :: a.reverse).dropWhile isBlank = c :: a.reverse :=
    List.dropWhile_cons_of_neg (by simp [h])
  unfold trimRight
  rw [List.reverse_append, List.reverse_cons, List.append_assoc, List.singleton_append,
    List.dropWhile_append, hstop]
  split
  · rename_i hempty
    rw [List.isEmpty_iff.mp hempty]
    simp
  · simp

/-- Only the second part of a text is trimmed if the first does not begin with a blank and the
    second does not either. -/
theorem trim_append {first : Char} (hfirst : isBlank first = false) (h : isBlank c = false)
    (a b : List Char) : trim (first :: a ++ c :: b) = first :: a ++ trim (c :: b) := by
  have hlater : trim (c :: b) = c :: trimRight b := by
    rw [trim_cons h]
    exact trimRight_append_cons h [] b
  rw [List.cons_append, trim_cons hfirst, ← List.cons_append, trimRight_append_cons h, hlater]

/-! ### Leads -/

variable {lead : List Char}

theorem dropLeading_append (hlead : lead ≠ []) (h : ¬ lead <+: cs) :
    dropLeading lead (lead ++ cs) = cs := by
  have hrest : dropLeading lead cs = cs := by
    cases cs with
    | nil => rw [dropLeading]
    | cons c cs =>
      rw [dropLeading, if_neg]
      exact fun hboth => h (List.isPrefixOf_iff_prefix.mp hboth.2)
  obtain ⟨first, rest, rfl⟩ := List.exists_cons_of_ne_nil hlead
  have hstart : (first :: rest).isPrefixOf (first :: (rest ++ cs)) = true :=
    List.isPrefixOf_iff_prefix.mpr (List.prefix_append (first :: rest) cs)
  rw [List.cons_append, dropLeading, if_pos ⟨hlead, hstart⟩, ← List.cons_append,
    List.drop_left, hrest]

theorem after?_append (lead cs : List Char) : after? lead (lead ++ cs) = some cs := by
  have hstart : lead.isPrefixOf (lead ++ cs) = true :=
    List.isPrefixOf_iff_prefix.mpr (List.prefix_append lead cs)
  unfold after?
  rw [if_pos hstart, List.drop_left]

theorem after?_eq_none (h : ¬ lead <+: cs) : after? lead cs = none :=
  if_neg fun hstart => h (List.isPrefixOf_iff_prefix.mp hstart)

/-- What stands before the first of its kind is known from there on. -/
theorem closed_prefix_iff (ha : c ∉ a) (hb : c ∉ b) : a ++ [c] <+: b ++ c :: cs ↔ a = b := by
  constructor
  · rintro ⟨rest, heq⟩
    have htake : ∀ a rest, c ∉ a → (a ++ c :: rest).takeWhile (· != c) = a := by
      intro a rest ha
      have hpos : ∀ x ∈ a, (x != c) = true := by
        intro x hx
        rw [bne_iff_ne]
        rintro rfl
        exact ha hx
      rw [List.takeWhile_append_of_pos hpos, List.takeWhile_cons_of_neg (by simp), List.append_nil]
    rw [List.append_assoc, List.singleton_append] at heq
    rw [← htake a rest ha, heq, htake b cs hb]
  · rintro rfl
    exact ⟨cs, by simp⟩

/-! ### Phrases -/

theorem occurs_iff : occurs needle cs = true ↔ needle <:+: cs := by
  induction cs with
  | nil => simp [occurs]
  | cons c cs ih => simp [occurs, List.infix_cons_iff, ih]

/-- A phrase does not begin where its first character is missing. -/
theorem infix_append_iff_of_head (hhead : needle.head? = some c) (ha : c ∉ a) :
    needle <:+: a ++ b ↔ needle <:+: b := by
  obtain ⟨rest, rfl⟩ := List.head?_eq_some_iff.mp hhead
  induction a with
  | nil => rfl
  | cons x a ih =>
    have hx : ¬ c :: rest <+: x :: (a ++ b) := by
      intro hstart
      obtain ⟨rfl, -⟩ := List.cons_prefix_cons.mp hstart
      exact ha List.mem_cons_self
    rw [List.cons_append, List.infix_cons_iff, ih fun h => ha (List.mem_cons_of_mem _ h)]
    exact or_iff_right hx

/-- A phrase does not end where its last character is missing. -/
theorem infix_append_iff_of_last (hlast : needle.getLast? = some c) (hb : c ∉ b) :
    needle <:+: a ++ b ↔ needle <:+: a := by
  have hhead : needle.reverse.head? = some c := by rw [List.head?_reverse, hlast]
  have hreverse : c ∉ b.reverse := fun h => hb (List.mem_reverse.mp h)
  rw [← List.reverse_infix, List.reverse_append, infix_append_iff_of_head hhead hreverse,
    List.reverse_infix]

/-- A phrase does not go beyond a character that it lacks. -/
theorem infix_split_iff (h : c ∉ needle) :
    needle <:+: a ++ c :: b ↔ needle <:+: a ∨ needle <:+: b := by
  have hbefore : ∀ a, needle <+: a ++ c :: b → needle <+: a := by
    intro a hneedle
    have hcut : a ++ [c] <+: a ++ c :: b := ⟨b, by simp⟩
    rcases List.prefix_or_prefix_of_prefix hneedle hcut with hshort | hlong
    · rcases List.prefix_concat_iff.mp hshort with rfl | hshort
      · exact absurd (by simp) h
      · exact hshort
    · exact absurd (hlong.subset (by simp)) h
  constructor
  · intro hneedle
    induction a with
    | nil =>
      rcases List.infix_cons_iff.mp hneedle with hstart | hlater
      · exact .inl (hbefore [] hstart).isInfix
      · exact .inr hlater
    | cons x a ih =>
      rcases List.infix_cons_iff.mp hneedle with hstart | hlater
      · exact .inl (hbefore (x :: a) hstart).isInfix
      · exact (ih hlater).imp_left fun ha => List.infix_cons_iff.mpr (.inr ha)
  · rintro (ha | hb)
    · exact ha.trans (List.prefix_append _ _).isInfix
    · exact hb.trans ((List.suffix_cons _ _).trans (List.suffix_append _ _)).isInfix

end ClusterAgent.Text
