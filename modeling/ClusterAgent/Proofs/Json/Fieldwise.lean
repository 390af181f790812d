/-
  ClusterAgent/Proofs/Json/Fieldwise.lean
  =======================================
  **What a record holds after reading.**

  A record is read leniently in two turns.  The value as a whole is tried first; if that
  fails and the value is an object, the fields that do not decode on their own are left
  out and the rest is tried.  The two turns agree: each field holds what stands under its
  name if that decodes, and its default otherwise (`Lawful.fieldwise`).

  A list goes through the first turn alone.  It is read as the object that names its items
  after the fields, in their order, and counts with all of them or not at all
  (`Lawful.get_of_lists`, `Lawful.decodeLenient_eq_zero_iff`).  Any other value gives the
  default record.
-/
import ClusterAgent.Json.Record
import ClusterAgent.Proofs.Json.Ordered
import Mathlib.Data.List.Nodup

namespace ClusterAgent.Json

variable {ρ : Type} {s : Schema ρ} {f : Field ρ} {fs : List (Field ρ)} {r r' : ρ}
  {object : List (String × Json)} {items : List Json} {key : String} {value : Json}

/-- Each key stands for one value. -/
def DistinctKeys (object : List (String × Json)) : Prop :=
  (object.map Prod.fst).Nodup

instance (object : List (String × Json)) : Decidable (DistinctKeys object) :=
  inferInstanceAs (Decidable (List.Nodup _))

theorem find?_filter (h : DistinctKeys object) (p : String × Json → Bool) (key : String) :
    find? key (object.filter p) = (find? key object).filter fun value => p (key, value) := by
  induction object with
  | nil => rfl
  | cons field rest ih =>
    obtain ⟨k, v⟩ := field
    obtain ⟨hfirst, hrest⟩ := List.nodup_cons.mp h
    by_cases hkey : k = key
    · subst hkey
      cases hp : p (k, v) with
      | true => simp [find?, hp, Option.filter]
      | false =>
        -- The key does not come again among the fields that are kept.
        have hnone : find? k (rest.filter p) = none := by
          cases hlater : find? k (rest.filter p) with
          | none => rfl
          | some later =>
            have hmem := List.mem_of_mem_filter (mem_of_find? hlater)
            exact absurd (List.mem_map_of_mem hmem) hfirst
        simp [find?, hp, hnone, Option.filter]
    · cases hp : p (k, v) <;> simp [find?, hp, hkey, ih hrest]

/-! ### Fields that can be stored -/

/-- What the object has under the name of the field, if anything, decodes. -/
def Field.Fits (f : Field ρ) (object : List (String × Json)) : Prop :=
  ∀ value, find? f.name object = some value → (f.decode value).isSome = true

namespace Schema

theorem ofObject_isSome_iff (object : List (String × Json)) (fs : List (Field ρ)) (r : ρ) :
    (ofObject object fs r).isSome = true ↔ ∀ f ∈ fs, f.Fits object := by
  induction fs generalizing r with
  | nil => simp [ofObject]
  | cons f fs ih =>
    unfold ofObject
    rw [List.forall_mem_cons]
    cases hfind : find? f.name object with
    | none => simp [Field.Fits, hfind, ih]
    | some value =>
      cases hdecode : f.decode value with
      | none => simp [Field.Fits, Field.store, hfind, hdecode]
      | some v => simp [Field.Fits, Field.store, hfind, hdecode, ih]

theorem accepts_iff {field : String × Json} :
    s.accepts field = true ↔
      ∀ f ∈ s.fields, f.name = field.1 → (f.decode field.2).isSome = true := by
  have hfits : ∀ f : Field ρ,
      f.Fits [field] ↔ (f.name = field.1 → (f.decode field.2).isSome = true) := by
    intro f
    by_cases hname : f.name = field.1
    · simp [Field.Fits, find?, hname]
    · simp [Field.Fits, find?, hname, Ne.symm hname]
  simp only [accepts, decode, ofObject_isSome_iff, hfits]

/-! ### Fields and their places -/

/-- The fields are what the record consists of: each has a name and a place of its own. -/
structure Lawful (s : Schema ρ) : Prop where
  names : (s.fields.map Field.name).Nodup
  get_set : ∀ f ∈ s.fields, ∀ v r, f.get (f.set v r) = v
  get_set_of_ne : ∀ f ∈ s.fields, ∀ g ∈ s.fields, f.name ≠ g.name →
    ∀ v r, f.get (g.set v r) = f.get r
  /-- There is nothing in the record besides. -/
  ext : ∀ r r', (∀ f ∈ s.fields, f.get r = f.get r') → r = r'

theorem Lawful.eq_of_name (hs : s.Lawful) {f g : Field ρ} (hf : f ∈ s.fields) (hg : g ∈ s.fields)
    (hname : f.name = g.name) : f = g :=
  List.inj_on_of_nodup_map hs.names hf hg hname

theorem Lawful.get_of_not_mem (hs : s.Lawful) (hf : f ∈ s.fields) (hfs : fs ⊆ s.fields)
    (hname : f.name ∉ fs.map Field.name) (h : ofObject object fs r = some r') :
    f.get r' = f.get r := by
  induction fs generalizing r with
  | nil =>
    cases h
    rfl
  | cons g fs ih =>
    obtain ⟨hg, hfs⟩ := List.cons_subset.mp hfs
    obtain ⟨hne, hname⟩ := not_or.mp (mt List.mem_cons.mpr hname)
    unfold ofObject at h
    split at h
    · exact ih hfs hname h
    · obtain ⟨stored, hstored, hrest⟩ := Option.bind_eq_some_iff.mp h
      obtain ⟨v, -, rfl⟩ := Option.map_eq_some_iff.mp hstored
      rw [ih hfs hname hrest]
      exact hs.get_set_of_ne f hf g hg hne v r

/-- Reading an object in one turn: every field holds what stands under its name, and what it held
    before if nothing does. -/
theorem Lawful.get_ofObject (hs : s.Lawful) (hfs : fs ⊆ s.fields)
    (hnames : (fs.map Field.name).Nodup) (h : ofObject object fs r = some r') (hf : f ∈ fs) :
    f.get r' = ((find? f.name object).bind f.decode).getD (f.get r) := by
  induction fs generalizing r with
  | nil => cases hf
  | cons g fs ih =>
    obtain ⟨hg, hlater⟩ := List.cons_subset.mp hfs
    obtain ⟨hfresh, hrest⟩ := List.nodup_cons.mp hnames
    unfold ofObject at h
    rcases List.mem_cons.mp hf with rfl | hf
    · split at h
      · rename_i hfind
        rw [hs.get_of_not_mem hg hlater hfresh h, hfind]
        rfl
      · rename_i value hfind
        obtain ⟨stored, hstored, h⟩ := Option.bind_eq_some_iff.mp h
        obtain ⟨v, hv, rfl⟩ := Option.map_eq_some_iff.mp hstored
        rw [hs.get_of_not_mem hg hlater hfresh h, hs.get_set f hg v r, hfind]
        simp [hv]
    · split at h
      · exact ih hlater hrest h hf
      · obtain ⟨stored, hstored, h⟩ := Option.bind_eq_some_iff.mp h
        obtain ⟨v, -, rfl⟩ := Option.map_eq_some_iff.mp hstored
        have hne : f.name ≠ g.name := by
          intro heq
          exact hfresh (heq ▸ List.mem_map_of_mem hf)
        rw [ih hlater hrest h hf, hs.get_set_of_ne f (hlater hf) g hg hne v r]

/-! ### Objects -/

/-- A record holds of an object, field by field, what decodes, and is the default elsewhere. -/
structure Fieldwise (s : Schema ρ) (object : List (String × Json)) : Prop where
  get : ∀ f ∈ s.fields, f.get (s.decodeLenient (.object object)) =
    ((find? f.name object).bind f.decode).getD (f.get s.zero)
  /-- No other record holds the same. -/
  unique : ∀ r, (∀ f ∈ s.fields, f.get r =
    ((find? f.name object).bind f.decode).getD (f.get s.zero)) →
      r = s.decodeLenient (.object object)
  /-- A field goes by its own key, whatever stands under the others. -/
  alone : ∀ f ∈ s.fields, ∀ other, DistinctKeys other →
    find? f.name other = find? f.name object →
      f.get (s.decodeLenient (.object other)) = f.get (s.decodeLenient (.object object))
  strict : (∀ f ∈ s.fields, f.Fits object) →
    s.decode (.object object) = some (s.decodeLenient (.object object))

/-- Lenient reading of an object by the two turns together. -/
theorem Lawful.get_decodeLenient (hs : s.Lawful) (h : DistinctKeys object) (hf : f ∈ s.fields) :
    f.get (s.decodeLenient (.object object)) =
      ((find? f.name object).bind f.decode).getD (f.get s.zero) := by
  unfold decodeLenient
  split
  · rename_i r hr
    exact hs.get_ofObject (fun _ h => h) hs.names hr hf
  · have hown : ∀ g ∈ s.fields, ∀ value,
        s.accepts (g.name, value) = (g.decode value).isSome := by
      intro g hg value
      rw [Bool.eq_iff_iff, accepts_iff]
      constructor
      · exact fun hall => hall g hg rfl
      · intro hdecode other hother hname
        rw [hs.eq_of_name hother hg hname]
        exact hdecode
    have hkept : ∀ g ∈ s.fields, find? g.name (object.filter s.accepts) =
        (find? g.name object).filter fun value => (g.decode value).isSome := by
      intro g hg
      rw [find?_filter h]
      simp only [hown g hg]
    -- Whatever is kept decodes, so the second turn gives a record.
    have hfits : ∀ g ∈ s.fields, g.Fits (object.filter s.accepts) := by
      intro g hg value hvalue
      rw [hkept g hg] at hvalue
      exact (Option.filter_eq_some_iff.mp hvalue).2
    obtain ⟨r, hr⟩ := Option.isSome_iff_exists.mp
      ((ofObject_isSome_iff (object.filter s.accepts) s.fields s.zero).mpr hfits)
    have hget := hs.get_ofObject (fun _ h => h) hs.names hr hf
    simp only [decode, hr, Option.getD_some]
    rw [hget, hkept f hf]
    cases hfind : find? f.name object with
    | none => rfl
    | some value => cases hdecode : f.decode value <;> simp [Option.filter, hdecode]

theorem Lawful.fieldwise (hs : s.Lawful) (h : DistinctKeys object) : s.Fieldwise object where
  get _ hf := hs.get_decodeLenient h hf
  unique r hr := hs.ext _ _ fun f hf => (hr f hf).trans (hs.get_decodeLenient h hf).symm
  alone f hf other hother hsame := by
    rw [hs.get_decodeLenient hother hf, hs.get_decodeLenient h hf, hsame]
  strict hfits := by
    obtain ⟨r, hr⟩ := Option.isSome_iff_exists.mp
      ((ofObject_isSome_iff object s.fields s.zero).mpr hfits)
    have hdecode : s.decode (.object object) = some r := hr
    simp [decodeLenient, hdecode]

/-! ### Lists -/

/-- The items under the names of the fields, in their order. -/
def named (fs : List (Field ρ)) (items : List Json) : List (String × Json) :=
  List.zipWith (fun f item => (f.name, item)) fs items

theorem ofObject_cons_of_not_mem (hkey : key ∉ fs.map Field.name) (r : ρ) :
    ofObject ((key, value) :: object) fs r = ofObject object fs r := by
  induction fs generalizing r with
  | nil => rfl
  | cons f fs ih =>
    obtain ⟨hne, hkey⟩ := not_or.mp (mt List.mem_cons.mpr hkey)
    have hrest : ofObject ((key, value) :: object) fs = ofObject object fs := funext (ih hkey)
    simp [ofObject, find?, hne, hrest]

theorem ofObject_nil (fs : List (Field ρ)) (r : ρ) : ofObject [] fs r = some r := by
  induction fs with
  | nil => rfl
  | cons f fs ih => simpa [ofObject, find?] using ih

/-- Reading a list is reading the object that names its items. -/
theorem ofItems_eq_ofObject (hnames : (fs.map Field.name).Nodup)
    (hlength : items.length ≤ fs.length) (r : ρ) :
    ofItems items fs r = ofObject (named fs items) fs r := by
  induction fs generalizing items r with
  | nil =>
    rw [List.eq_nil_of_length_eq_zero (Nat.le_zero.mp hlength)]
    rfl
  | cons f fs ih =>
    obtain ⟨hfresh, hnames⟩ := List.nodup_cons.mp hnames
    cases items with
    | nil => exact (ofObject_nil (f :: fs) r).symm
    | cons item items =>
      have hrest : ∀ r, ofItems items fs r = ofObject ((f.name, item) :: named fs items) fs r := by
        intro r
        rw [ofObject_cons_of_not_mem hfresh, ih hnames (Nat.le_of_succ_le_succ hlength)]
      simp [ofItems, ofObject, named, find?, funext hrest]

theorem ofItems_of_lt (hlength : fs.length < items.length) (r : ρ) :
    ofItems items fs r = none := by
  induction fs generalizing items r with
  | nil =>
    cases items with
    | nil => cases hlength
    | cons item items => rfl
  | cons f fs ih =>
    cases items with
    | nil => cases hlength
    | cons item items =>
      have hrest : ofItems items fs = fun _ => none :=
        funext (ih (Nat.lt_of_succ_lt_succ hlength))
      simp [ofItems, hrest]

theorem find?_named (hnames : (fs.map Field.name).Nodup) {i : Nat} (hi : fs[i]? = some f) :
    find? f.name (named fs items) = items[i]? := by
  induction fs generalizing items i with
  | nil => cases hi
  | cons g fs ih =>
    obtain ⟨hfresh, hnames⟩ := List.nodup_cons.mp hnames
    cases items with
    | nil => rfl
    | cons item items =>
      cases i with
      | zero =>
        cases hi
        simp [named, find?]
      | succ i =>
        have hmem : f ∈ fs := List.mem_of_getElem? hi
        have hne : g.name ≠ f.name := fun heq => hfresh (heq ▸ List.mem_map_of_mem hmem)
        have hrest : find? f.name (named fs items) = items[i]? := ih hnames hi
        simpa [named, find?, hne] using hrest

/-- The items are fields of the record from the first one on: not more of them than there are
    fields, and each decodes for the field in its place. -/
def Lists (s : Schema ρ) (items : List Json) : Prop :=
  items.length ≤ s.fields.length ∧
    ∀ (i : Nat) f item, s.fields[i]? = some f → items[i]? = some item →
      (f.decode item).isSome = true

theorem Lawful.fits_named (hs : s.Lawful) (h : s.Lists items) :
    ∀ f ∈ s.fields, f.Fits (named s.fields items) := by
  intro f hf item hitem
  obtain ⟨i, hi⟩ := List.getElem?_of_mem hf
  rw [find?_named hs.names hi] at hitem
  exact h.2 i f item hi hitem

theorem Lawful.decode_array (hs : s.Lawful) (h : items.length ≤ s.fields.length) :
    s.decode (.array items) = s.decode (.object (named s.fields items)) :=
  ofItems_eq_ofObject hs.names h s.zero

/-- A list of fields is read by position. -/
theorem Lawful.get_of_lists (hs : s.Lawful) (h : s.Lists items) {i : Nat}
    (hi : s.fields[i]? = some f) :
    f.get (s.decodeLenient (.array items)) =
      ((items[i]?).bind f.decode).getD (f.get s.zero) := by
  obtain ⟨r, hr⟩ := Option.isSome_iff_exists.mp
    ((ofObject_isSome_iff (named s.fields items) s.fields s.zero).mpr (hs.fits_named h))
  have hdecode : s.decode (.array items) = some r := (hs.decode_array h.1).trans hr
  have hget := hs.get_ofObject (fun _ h => h) hs.names hr (List.mem_of_getElem? hi)
  simp only [decodeLenient, hdecode]
  rw [hget, find?_named hs.names hi]

/-- Any other list counts for nothing. -/
theorem Lawful.decodeLenient_of_not_lists (hs : s.Lawful) (h : ¬ s.Lists items) :
    s.decodeLenient (.array items) = s.zero := by
  have hnone : s.decode (.array items) = none := by
    by_cases hlength : items.length ≤ s.fields.length
    · rw [hs.decode_array hlength, ← Option.not_isSome_iff_eq_none]
      intro hsome
      have hfits := (ofObject_isSome_iff (named s.fields items) s.fields s.zero).mp hsome
      apply h
      refine ⟨hlength, ?_⟩
      intro i f item hi hitem
      exact hfits f (List.mem_of_getElem? hi) item ((find?_named hs.names hi).trans hitem)
    · exact ofItems_of_lt (Nat.lt_of_not_le hlength) s.zero
  simp [decodeLenient, hnone]

/-- The items are the defaults of the fields in whose places they stand. -/
def Defaults (s : Schema ρ) (items : List Json) : Prop :=
  ∀ (i : Nat) f item, s.fields[i]? = some f → items[i]? = some item →
    f.decode item = some (f.get s.zero)

/-- A list counts for nothing just if it is no list of fields or gives nothing but defaults. -/
theorem Lawful.decodeLenient_eq_zero_iff (hs : s.Lawful) :
    s.decodeLenient (.array items) = s.zero ↔ (s.Lists items → s.Defaults items) := by
  constructor
  · intro hzero hlists i f item hi hitem
    have hget := hs.get_of_lists hlists hi
    obtain ⟨value, hvalue⟩ := Option.isSome_iff_exists.mp (hlists.2 i f item hi hitem)
    rw [hzero, hitem, Option.bind_some, hvalue, Option.getD_some] at hget
    rw [hvalue, hget]
  · intro hdefaults
    by_cases hlists : s.Lists items
    · apply hs.ext
      intro f hf
      obtain ⟨i, hi⟩ := List.getElem?_of_mem hf
      rw [hs.get_of_lists hlists hi]
      cases hitem : items[i]? with
      | none => rfl
      | some item => simp [hdefaults hlists i f item hi hitem]
    · exact hs.decodeLenient_of_not_lists hlists

/-! ### Anything but an object -/

theorem decodeLenient_scalar (hobject : value.isObject = false)
    (hlist : ∀ items, value ≠ .array items) : s.decodeLenient value = s.zero := by
  cases value with
  | null | bool _ | number _ | string _ => rfl
  | array items => exact absurd rfl (hlist items)
  | object fields => cases hobject

/-- Of what is no object, only a list of fields can count for something. -/
theorem Lawful.decodeLenient_eq_zero_iff_of_not_object (hs : s.Lawful)
    (hobject : value.isObject = false) :
    s.decodeLenient value = s.zero ↔
      ∀ items, value = .array items → s.Lists items → s.Defaults items := by
  by_cases hlist : ∃ items, value = .array items
  · obtain ⟨items, rfl⟩ := hlist
    rw [hs.decodeLenient_eq_zero_iff]
    constructor
    · rintro hdefaults items' ⟨⟩
      exact hdefaults
    · intro hdefaults
      exact hdefaults items rfl
  · have hscalar : ∀ items, value ≠ .array items := not_exists.mp hlist
    exact iff_of_true (decodeLenient_scalar hobject hscalar)
      fun items heq => absurd heq (hscalar items)

end Schema

end ClusterAgent.Json
