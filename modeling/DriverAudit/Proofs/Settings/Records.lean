import DriverAudit.Settings
import Mathlib.Data.List.Forall2

/-!
# Records that name some of their fields

A record of settings has fields in some order, each of them with the values
that may be written for it (`Field`). Which of them a record names is given by
a set of names, and the record may take two forms (`IsRecord`): an object,
whose members may stand in any order and between members of any other name,
or a list, which names a first part of the fields.

The main statement is that in both forms reading the fields finds for each
field that is named the value written for it, and nothing for the others
(`fieldsOf_of_isRecord`).
-/

namespace DriverAudit.Settings

/-- **A field of a record**: its name, and the values that may be written for
it. -/
structure Field where
  name : String
  Writes : Json → Prop

/-- **What a record gives a field**: one of its values if the field is named,
and nothing otherwise. -/
inductive Gives (named : String → Bool) (field : Field) :
    Option Json → Prop
  | value {v : Json} (hname : named field.name = true) (h : field.Writes v) :
    Gives named field (some v)
  | nothing (hname : named field.name = false) : Gives named field none

/-- The members of an object that give fields their values. -/
def membersFor : List Field → List (Option Json) → List (String × Json)
  | field :: fields, some v :: values =>
    (field.name, v) :: membersFor fields values
  | _ :: fields, none :: values => membersFor fields values
  | _, _ => []

/-- **The ways to write a record** that names some of its fields. -/
inductive IsRecord (named : String → Bool) (fields : List Field) : Json → Prop
  /-- An object, with texts of characters for keys. The members whose name is
  that of a field give the fields their values, in any order; the others are
  any members. -/
  | object {values : List (Option Json)} {members : List (String × Json)}
      (hgives : List.Forall₂ (Gives named) fields values)
      (hmembers : List.Perm
        (members.filter fun member => member.1 ∈ fields.map Field.name)
        (membersFor fields values)) :
      IsRecord named fields (.record members)
  /-- A list of the first fields. -/
  | array {items : List Json} {others : Nat}
      (hgives : List.Forall₂ (Gives named) fields
        (items.map some ++ List.replicate others none)) :
      IsRecord named fields (.array items)

section Members

variable {named : String → Bool} {fields : List Field}
  {values : List (Option Json)}

theorem valuesOf_cons (member : String × Json)
    (members : List (String × Json)) (name : String) :
    valuesOf (member :: members) name
      = if member.1 = name then member.2 :: valuesOf members name
        else valuesOf members name := by
  by_cases h : member.1 = name
  · simp [valuesOf, h]
  · simp [valuesOf, h]

/-- Fields have no other members. -/
theorem valuesOf_membersFor_of_notMem {name : String}
    (h : name ∉ fields.map Field.name) :
    valuesOf (membersFor fields values) name = [] := by
  fun_induction membersFor fields values with
  | case1 field fields v values ih =>
    rw [valuesOf_cons, if_neg (List.ne_of_not_mem_cons h).symm,
      ih (List.not_mem_of_not_mem_cons h)]
  | case2 field fields values ih => exact ih (List.not_mem_of_not_mem_cons h)
  | case3 => rfl

/-- The members of the first field are those of its value. -/
theorem valuesOf_membersFor_self {field : Field} (value : Option Json)
    (h : field.name ∉ fields.map Field.name) :
    valuesOf (membersFor (field :: fields) (value :: values)) field.name
      = value.toList := by
  cases value with
  | none => rw [membersFor, valuesOf_membersFor_of_notMem h]; rfl
  | some v =>
    rw [membersFor, valuesOf_cons, if_pos rfl, valuesOf_membersFor_of_notMem h]
    rfl

/-- The members of the other fields are not affected by the first. -/
theorem valuesOf_membersFor_of_ne {field : Field} (value : Option Json)
    {name : String} (h : field.name ≠ name) :
    valuesOf (membersFor (field :: fields) (value :: values)) name
      = valuesOf (membersFor fields values) name := by
  cases value with
  | none => rfl
  | some v => rw [membersFor, valuesOf_cons, if_neg h]

theorem atMostOne_of_perm {l : List Json} {value : Option Json}
    (h : l.Perm value.toList) : atMostOne l = some value := by
  cases value with
  | none => rw [List.perm_nil.1 h]; rfl
  | some v => rw [List.perm_singleton.1 h]; rfl

/-- **Members in any order give each field its value.** -/
theorem mapM_atMostOne_of_perm {members : List (String × Json)}
    (hgives : List.Forall₂ (Gives named) fields values)
    (hnodup : (fields.map Field.name).Nodup)
    (hmembers : ∀ name ∈ fields.map Field.name,
      (valuesOf members name).Perm
        (valuesOf (membersFor fields values) name)) :
    (fields.map Field.name).mapM
        (fun name => atMostOne (valuesOf members name))
      = some values := by
  induction hgives with
  | nil => rfl
  | @cons field value fields values _ _ ih =>
    obtain ⟨hfield, hrest⟩ := List.nodup_cons.1 hnodup
    -- a field has at most one value, so the order of members is no matter
    have hfirst : atMostOne (valuesOf members field.name) = some value := by
      refine atMostOne_of_perm ?_
      rw [← valuesOf_membersFor_self value hfield]
      exact hmembers field.name List.mem_cons_self
    have hothers := ih hrest fun name hname => by
      have hne : field.name ≠ name := fun heq => hfield (heq ▸ hname)
      rw [← valuesOf_membersFor_of_ne value hne]
      exact hmembers name (List.mem_cons_of_mem _ hname)
    rw [List.map_cons, List.mapM_cons, hfirst, hothers]
    rfl

/-- The members that are named like a field hold all its values. -/
theorem valuesOf_filter {members : List (String × Json)} {name : String}
    {names : List String} (h : name ∈ names) :
    valuesOf (members.filter fun member => member.1 ∈ names) name
      = valuesOf members name := by
  unfold valuesOf
  rw [List.filter_filter]
  refine congrArg _ (List.filter_congr fun member _ => ?_)
  by_cases hname : member.1 = name
  · simp [hname, h]
  · simp [hname]

/-- The keys of a record are the characters that it was made of. -/
theorem namedMembers_record (members : List (String × Json)) :
    namedMembers (members.map fun (key, value) => (.ofString key, value))
      = some members := by
  unfold namedMembers
  induction members with
  | nil => rfl
  | cons member members ih =>
    obtain ⟨key, value⟩ := member
    simp [ih]

end Members

/-- **A record is read field by field**: each field that is named has a value
written for it, and the others have none. -/
theorem fieldsOf_of_isRecord {named : String → Bool} {fields : List Field}
    {names : List String} {j : Json} (hnames : fields.map Field.name = names)
    (hnodup : names.Nodup) (h : IsRecord named fields j) :
    ∃ values, fieldsOf names j = some values
      ∧ List.Forall₂ (Gives named) fields values := by
  subst hnames
  cases h with
  | @object values members hgives hmembers =>
    refine ⟨values, ?_, hgives⟩
    have hvalues : ∀ name ∈ fields.map Field.name,
        (valuesOf members name).Perm
          (valuesOf (membersFor fields values) name) := fun name hname => by
      rw [← valuesOf_filter hname]
      exact (hmembers.filter _).map _
    rw [Json.record, fieldsOf, namedMembers_record]
    exact mapM_atMostOne_of_perm hgives hnodup hvalues
  | @array items others hgives =>
    -- the list is no longer than the fields, and the rest has no values
    refine ⟨_, ?_, hgives⟩
    have hlength := hgives.length_eq
    rw [List.length_append, List.length_map, List.length_replicate] at hlength
    have hothers : fields.length - items.length = others := by omega
    rw [fieldsOf, List.length_map, if_pos (by omega), hothers]

/-- The object that names all fields in their order. -/
theorem isRecord_of_forall₂ (fields : List Field) {values : List Json}
    (h : List.Forall₂ Field.Writes fields values) :
    IsRecord (fun _ => true) fields
      (.record ((fields.map Field.name).zip values)) := by
  have hmembers : membersFor fields (values.map some)
      = (fields.map Field.name).zip values := by
    induction h with
    | nil => rfl
    | cons _ _ ih => rw [List.map_cons, membersFor, ih]; rfl
  refine .object
    (List.forall₂_map_right_iff.2 (h.imp fun _ _ => .value rfl)) ?_
  rw [hmembers]
  refine .of_eq (List.filter_eq_self.2 fun member hmember => ?_)
  exact decide_eq_true (List.of_mem_zip hmember).1

end DriverAudit.Settings
