/-
# What assignability means for values

A type admits values: the top type all of them, a scalar type those of its kind, an entity the records
of its name, a sequence the lists of values that the elements admit. Between types without functions
one accepts another just if it admits all its values, so assignability is neither too strict nor too
lax.
-/
import ExprTree.Proofs.TypeOrder
import ExprTree.Proofs.TypeSoundness

namespace ExprTree

/-! ## Admitted values -/

namespace Ty

/-- Whether the value is one of the type, whatever the fields of records hold. Functions are not
values. -/
def admits : Ty → Value → Bool
  | .object, _ => true
  | .boolean, .boolean _ => true
  | .int32, .int32 _ => true
  | .string, .string _ => true
  | .entity name, .record typeName _ => typeName = name
  | .sequence element, .list elements => elements.all fun value => element.admits value
  | _, _ => false

/-- Whether no function type occurs in the type. -/
def isFunctionFree : Ty → Bool
  | .sequence element => element.isFunctionFree
  | .function .. => false
  | _ => true

end Ty

/-- The schema that says nothing about fields. -/
def Schema.empty : Schema :=
  fun _ _ => none

/-- A type admits what fits it as long as nothing is said about fields. -/
theorem Ty.admits_iff_fits {type : Ty} {value : Value} :
    type.admits value = true ↔ value.Fits .empty type := by
  induction type using Ty.parts_induction generalizing value with
  | node type ih =>
      constructor
      · intro h
        cases type with
        | object => exact .object value
        | entity name =>
            cases value with
            | record typeName fields =>
                obtain rfl : typeName = name := by simpa [admits] using h
                exact .record fun _ _ _ _ hnone => nomatch hnone
            | _ => simp [admits] at h
        | sequence element =>
            cases value with
            | list elements =>
                simp only [admits, List.all_eq_true] at h
                exact .list fun value hvalue => (ih element List.mem_cons_self).mp (h value hvalue)
            | _ => simp [admits] at h
        | boolean | int32 | string =>
            cases value <;> first | constructor | simp [admits] at h
        | function => simp [admits] at h
      · intro h
        cases h with
        | record => simp [admits]
        | @list _ element helements =>
            simp only [admits, List.all_eq_true]
            exact fun value hvalue => (ih element List.mem_cons_self).mpr (helements value hvalue)
        | _ => rfl

namespace Value

variable {value : Value} {schema : Schema} {type target source : Ty}

/-- A value with a declared type is admitted by it. -/
theorem admits_of_type? (htype : value.type? = some type) : type.admits value = true := by
  cases value with
  | list => cases htype
  | _ =>
      obtain rfl := Option.some.inj htype
      simp [Ty.admits]

/-- A value with a declared type fits no type that does not accept it. -/
theorem not_fits_of_type? (htype : value.type? = some type) (h : target.accepts type = false) :
    ¬ value.Fits schema target := by
  intro hfits
  cases hfits with
  | object => simp at h
  | list => cases htype
  | _ =>
      obtain rfl := Option.some.inj htype
      simp at h

/-- A type that does not accept a type without functions misses a value of that type, whatever the
schema. The list of one value that the element types tell apart tells sequences apart, and the empty
list a sequence and anything else. -/
theorem exists_fits_and_not_fits (hsource : source.isFunctionFree = true)
    (h : target.accepts source = false) :
    ∃ value : Value, ∀ schema, value.Fits schema source ∧ ¬ value.Fits schema target := by
  induction source using Ty.parts_induction generalizing target with
  | node source ih =>
      cases source with
      | boolean => exact ⟨.boolean true, fun _ => ⟨.boolean true, not_fits_of_type? rfl h⟩⟩
      | int32 => exact ⟨.int32 0, fun _ => ⟨.int32 0, not_fits_of_type? rfl h⟩⟩
      | string => exact ⟨.string "", fun _ => ⟨.string "", not_fits_of_type? rfl h⟩⟩
      | entity name =>
          have hrecord (schema : Schema) : (Value.record name []).Fits schema (.entity name) :=
            .record fun _ _ _ hfield => nomatch hfield
          exact ⟨.record name [], fun schema => ⟨hrecord schema, not_fits_of_type? rfl h⟩⟩
      | object =>
          cases target with
          | object => simp at h
          | boolean => exact ⟨.int32 0, fun _ => ⟨.object _, not_fits_of_type? rfl rfl⟩⟩
          | _ => exact ⟨.boolean true, fun _ => ⟨.object _, not_fits_of_type? rfl rfl⟩⟩
      | sequence element =>
          cases target with
          | object => simp at h
          | sequence element' =>
              rw [Ty.accepts_sequence] at h
              obtain ⟨value, hvalue⟩ := ih element List.mem_cons_self hsource h
              refine ⟨.list [value], fun schema => ⟨.list ?_, fun hfits => ?_⟩⟩
              · intro member hmember
                rw [List.mem_singleton.mp hmember]
                exact (hvalue schema).1
              · cases hfits with
                | list helements =>
                    exact (hvalue schema).2 (helements value List.mem_cons_self)
          | _ => exact ⟨.list [], fun _ => ⟨.list (by simp), fun hfits => nomatch hfits⟩⟩
      | function => cases hsource

end Value

/-! ## Assignability and values -/

/-- **A type accepts another one just if it admits all its values**, and every value is admitted by its
declared type. Only the accepted type has to be without functions: a function type admits no values,
so any type would do in its place. -/
theorem Ty.accepts_iff_admits :
    (∀ target source : Ty, source.isFunctionFree = true →
      (target.accepts source = true ↔
        ∀ value : Value, source.admits value = true → target.admits value = true)) ∧
      ∀ (value : Value) (type : Ty), value.type? = some type → type.admits value = true := by
  refine ⟨fun target source hsource => ?_, fun value type => Value.admits_of_type?⟩
  constructor
  · intro haccepts value hvalue
    rw [admits_iff_fits] at hvalue ⊢
    exact hvalue.of_accepts haccepts
  · intro hall
    by_contra hnot
    rw [Bool.not_eq_true] at hnot
    obtain ⟨value, hvalue⟩ := Value.exists_fits_and_not_fits hsource hnot
    obtain ⟨hfits, hmisses⟩ := hvalue .empty
    exact hmisses (admits_iff_fits.mp (hall value (admits_iff_fits.mpr hfits)))

/-- Lists of lists are lists of anything, but not the other way around; a record is of its entity. -/
theorem Ty.accepts_iff_admits_lists :
    let lists : Ty := .sequence (.sequence (.entity "Order"))
    let anything : Ty := .sequence .object
    lists.isFunctionFree = true ∧ anything.isFunctionFree = true ∧
      (∀ value : Value, lists.admits value = true → anything.admits value = true) ∧
      (¬ ∀ value : Value, anything.admits value = true → lists.admits value = true) ∧
      (Ty.entity "Order").admits (.record "Order" [("total", .int32 0)]) = true := by
  intro lists anything
  obtain ⟨haccepts, htyped⟩ := Ty.accepts_iff_admits
  refine ⟨rfl, rfl, (haccepts anything lists rfl).mp (by decide), fun hall => ?_, htyped _ _ rfl⟩
  exact absurd ((haccepts lists anything rfl).mpr hall) (by decide)

end ExprTree
