/-
# Values with their fields as written

A binary form may list the fields of a record in any order, and one name several times. Here are the
values such forms are of: what becomes of one when the fields of every record are put into a table,
and that nothing changes just if they stood in order. Names are in order by their UTF-8 forms.
-/
import Mathlib.Data.List.Flatten
import ExprTree.Proofs.Tables
import ExprTree.Proofs.Wire.Basic
import ExprTree.Proofs.Wire.ByteOrder
import ExprTree.Wire.Value

namespace ExprTree

open Wire

namespace Value

/-! ## Settling -/

mutual

/-- The value with the fields of every record in it put into a table, one after the other. -/
def settled : Value → Value
  | .boolean b => .boolean b
  | .int32 n => .int32 n
  | .string text => .string text
  | .record typeName fields => .record typeName (Table.ofList (settledFields fields))
  | .list elements => .list (settledAll elements)

/-- Fields with their values settled. -/
def settledFields : List (String × Value) → List (String × Value)
  | [] => []
  | (name, value) :: fields => (name, value.settled) :: settledFields fields

/-- Several values settled. -/
def settledAll : List Value → List Value
  | [] => []
  | value :: values => value.settled :: settledAll values

end

theorem settledFields_eq_map (fields : List (String × Value)) :
    settledFields fields = fields.map (Prod.map id settled) := by
  induction fields with
  | nil => rfl
  | cons field fields ih => rw [settledFields, ih, List.map_cons, Prod.map, id]

theorem settledAll_eq_map (values : List Value) : settledAll values = values.map settled := by
  induction values with
  | nil => rfl
  | cons value values ih => rw [settledAll, ih, List.map_cons]

/-- All lengths in the value fit in eight bytes. -/
inductive Bounded : Value → Prop
  | boolean (b : Bool) : Bounded (.boolean b)
  | int32 (n : Int32) : Bounded (.int32 n)
  | string {text : String} : text.utf8ByteSize < 2 ^ 64 → Bounded (.string text)
  | record {typeName : String} {fields : List (String × Value)} :
      typeName.utf8ByteSize < 2 ^ 64 → fields.length < 2 ^ 64 →
      (∀ field ∈ fields, field.1.utf8ByteSize < 2 ^ 64) → (∀ field ∈ fields, Bounded field.2) →
      Bounded (.record typeName fields)
  | list {elements : List Value} : elements.length < 2 ^ 64 →
      (∀ element ∈ elements, Bounded element) → Bounded (.list elements)

/-- In every record of the value the names of the fields strictly increase, compared byte by byte in
their UTF-8 forms. -/
inductive InOrder : Value → Prop
  | boolean (b : Bool) : InOrder (.boolean b)
  | int32 (n : Int32) : InOrder (.int32 n)
  | string (text : String) : InOrder (.string text)
  | record {typeName : String} {fields : List (String × Value)} :
      (Table.names fields).Pairwise (fun a b => utf8 a < utf8 b) →
      (∀ field ∈ fields, InOrder field.2) → InOrder (.record typeName fields)
  | list {elements : List Value} :
      (∀ element ∈ elements, InOrder element) → InOrder (.list elements)

/-- Names in order by their UTF-8 forms are in order. -/
theorem pairwise_utf8_iff {fields : List (String × Value)} :
    (Table.names fields).Pairwise (fun a b => utf8 a < utf8 b) ↔ Table.Sorted fields :=
  List.Pairwise.iff fun _ _ => utf8_lt_iff

variable {value : Value}

/-- A value with its fields in order is settled. -/
theorem InOrder.settled_eq (h : value.InOrder) : value.settled = value := by
  induction h with
  | boolean | int32 | string => rfl
  | @record typeName fields hnames _ ih =>
      have hfields : fields.map (Prod.map id settled) = fields := by
        refine (List.map_congr_left fun field hfield => ?_).trans (List.map_id fields)
        exact Prod.ext rfl (ih field hfield)
      rw [settled, settledFields_eq_map, hfields,
        Table.ofList_of_sorted (pairwise_utf8_iff.mp hnames)]
  | @list elements _ ih =>
      rw [settled, settledAll_eq_map, List.map_congr_left ih, List.map_id']

/-- A field of a table was set with a settled value. -/
theorem exists_of_mem_settledFields {fields : List (String × Value)} {field : String × Value}
    (h : field ∈ Table.ofList (settledFields fields)) :
    ∃ written ∈ fields, field = (written.1, written.2.settled) := by
  have hmem := (Table.subperm_ofList _).subset h
  rw [settledFields_eq_map] at hmem
  obtain ⟨written, hwritten, rfl⟩ := List.mem_map.mp hmem
  exact ⟨written, hwritten, rfl⟩

/-- What is settled has its fields in order. -/
theorem Bounded.inOrder_settled (h : value.Bounded) : value.settled.InOrder := by
  induction h with
  | boolean b => exact .boolean b
  | int32 n => exact .int32 n
  | @string text _ => exact .string text
  | record _ _ _ _ ih =>
      refine .record (pairwise_utf8_iff.mpr (Table.sorted_ofList _)) fun field hfield => ?_
      obtain ⟨written, hwritten, rfl⟩ := exists_of_mem_settledFields hfield
      exact ih written hwritten
  | list _ _ ih =>
      rw [settled, settledAll_eq_map]
      exact .list (List.forall_mem_map.mpr ih)

/-- Settling makes nothing longer. -/
theorem Bounded.settled (h : value.Bounded) : value.settled.Bounded := by
  induction h with
  | boolean b => exact .boolean b
  | int32 n => exact .int32 n
  | string htext => exact .string htext
  | @record typeName fields htypeName hlength hnames _ ih =>
      have hle := (Table.subperm_ofList (settledFields fields)).length_le
      rw [settledFields_eq_map, List.length_map] at hle
      refine .record htypeName ?_ (fun field hfield => ?_) fun field hfield => ?_
      · rw [settledFields_eq_map]
        exact Nat.lt_of_le_of_lt hle hlength
      · obtain ⟨written, hwritten, rfl⟩ := exists_of_mem_settledFields hfield
        exact hnames written hwritten
      · obtain ⟨written, hwritten, rfl⟩ := exists_of_mem_settledFields hfield
        exact ih written hwritten
  | list hlength _ ih =>
      rw [Value.settled, settledAll_eq_map]
      exact .list (by rwa [List.length_map]) (List.forall_mem_map.mpr ih)

/-- A value has its fields in order just if settling changes nothing. -/
theorem Bounded.settled_eq_iff (h : value.Bounded) : value.settled = value ↔ value.InOrder :=
  ⟨fun heq => heq ▸ h.inOrder_settled, InOrder.settled_eq⟩

end Value

namespace Record

/-- The record with its fields put into a table, one after the other, and those of every record in it
as well. -/
def settled (record : Record) : Record :=
  ⟨record.typeName, Table.ofList (record.fields.map (Prod.map id Value.settled))⟩

/-- All lengths in the record fit in eight bytes. -/
def Bounded (record : Record) : Prop :=
  record.toValue.Bounded

/-- In the record and in every record in it the names of the fields strictly increase. -/
def InOrder (record : Record) : Prop :=
  record.toValue.InOrder

theorem toValue_settled (record : Record) : record.settled.toValue = record.toValue.settled := by
  rw [toValue, toValue, settled, Value.settled, Value.settledFields_eq_map]

theorem toValue_injective : Function.Injective toValue := by
  rintro ⟨typeName, fields⟩ ⟨typeName', fields'⟩ h
  cases h
  rfl

variable {record : Record}

/-- A record with its fields in order is settled. -/
theorem settled_eq (h : record.InOrder) : record.settled = record := by
  refine toValue_injective ?_
  rw [toValue_settled]
  exact h.settled_eq

theorem Bounded.inOrder_settled (h : record.Bounded) : record.settled.InOrder := by
  rw [InOrder, toValue_settled]
  exact Value.Bounded.inOrder_settled h

theorem Bounded.settled (h : record.Bounded) : record.settled.Bounded := by
  rw [Bounded, toValue_settled]
  exact Value.Bounded.settled h

theorem Bounded.settled_eq_iff (h : record.Bounded) : record.settled = record ↔ record.InOrder :=
  ⟨fun heq => heq ▸ h.inOrder_settled, settled_eq⟩

/-- **Of the fields of one name the last one stays.** -/
theorem get?_settled (record : Record) (name : String) :
    record.settled.get? name = (record.fields.reverse.lookup name).map Value.settled := by
  rw [get?, settled, Table.lookup_ofList, ← List.map_reverse, Table.lookup_map]

end Record

namespace Wire

/-! ## Lengths of forms -/

theorem encodeValues_eq_flatMap (values : List Value) :
    encodeValues values = values.flatMap encodeValue := by
  induction values with
  | nil => rfl
  | cons value values ih => rw [encodeValues, ih, List.flatMap_cons]

theorem encodeValue_toValue (record : Record) :
    encodeValue record.toValue = encodeTag 3 ++ encodeRecord record := by
  simp only [Record.toValue, encodeValue, encodeRecord, List.append_assoc]

/-- The binary form of a field, its name and its value. -/
def encodeField (field : String × Value) : List UInt8 :=
  encodeText field.1 ++ encodeValue field.2

theorem encodeFields_eq_flatMap (fields : List (String × Value)) :
    encodeFields fields = fields.flatMap encodeField := by
  induction fields with
  | nil => rfl
  | cons field fields ih => rw [encodeFields, ih, List.flatMap_cons, encodeField]

/-- Things with shorter forms have shorter forms together. -/
theorem length_flatMap_map_le {α : Type} {items : List α} {f : α → α} {encode : α → List UInt8}
    (h : ∀ a ∈ items, (encode (f a)).length ≤ (encode a).length) :
    ((items.map f).flatMap encode).length ≤ (items.flatMap encode).length := by
  induction items with
  | nil => exact Nat.le_refl _
  | cons a items ih =>
      rw [List.forall_mem_cons] at h
      rw [List.map_cons, List.flatMap_cons, List.flatMap_cons, List.length_append, List.length_append]
      exact Nat.add_le_add h.1 (ih h.2)

open List in
/-- Some of the things have a shorter form together than all of them. -/
theorem length_flatMap_le_of_subperm {α : Type} {items items' : List α} (h : items <+~ items')
    (encode : α → List UInt8) :
    (items.flatMap encode).length ≤ (items'.flatMap encode).length := by
  obtain ⟨picked, hperm, hsublist⟩ := h
  rw [← (hperm.flatMap_right encode).length_eq]
  exact (hsublist.flatMap encode).length_le

/-- **A settled value has no longer form.** -/
theorem length_encodeValue_settled_le {value : Value} (h : value.Bounded) :
    (encodeValue value.settled).length ≤ (encodeValue value).length := by
  induction h with
  | boolean | int32 | string => exact Nat.le_refl _
  | @record typeName fields _ _ _ _ ih =>
      have hsettled : ((fields.map (Prod.map id Value.settled)).flatMap encodeField).length
          ≤ (fields.flatMap encodeField).length := by
        refine length_flatMap_map_le fun field hfield => ?_
        rw [encodeField, encodeField, List.length_append, List.length_append]
        exact Nat.add_le_add_left (ih field hfield) _
      have htable := length_flatMap_le_of_subperm
        (Table.subperm_ofList (fields.map (Prod.map id Value.settled))) encodeField
      simp only [Value.settled, Value.settledFields_eq_map, encodeValue, encodeFields_eq_flatMap,
        List.length_append, encodeLength, length_encodeNat]
      omega
  | @list elements _ _ ih =>
      have helements := length_flatMap_map_le ih
      simp only [Value.settled, Value.settledAll_eq_map, encodeValue, encodeValues_eq_flatMap,
        List.length_append, encodeLength, length_encodeNat]
      omega

/-- A settled record has no longer form. -/
theorem length_encodeRecord_settled_le {record : Record} (h : record.Bounded) :
    (encodeRecord record.settled).length ≤ (encodeRecord record).length := by
  have hvalue := length_encodeValue_settled_le h
  rw [← Record.toValue_settled, encodeValue_toValue, encodeValue_toValue, List.length_append,
    List.length_append] at hvalue
  exact Nat.le_of_add_le_add_left hvalue

end Wire

end ExprTree
