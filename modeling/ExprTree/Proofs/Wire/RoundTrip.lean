/-
# Types, values and records are read back

What was written for a type, a value or a record is read back as that, whatever stands behind it. So
no binary form stands at the front of another one, and different things have different forms. Written
can be whatever has only lengths that fit in eight bytes.
-/
import ExprTree.Proofs.Wire.Settled
import ExprTree.Wire.Ty

namespace ExprTree

open Wire Reader

/-! ## What can be written -/

/-- The types all of whose lengths fit in eight bytes. -/
inductive Ty.Writable : Ty → Prop
  | boolean : Writable .boolean
  | int32 : Writable .int32
  | string : Writable .string
  | object : Writable .object
  | entity {name : String} : name.utf8ByteSize < 2 ^ 64 → Writable (.entity name)
  | sequence {element : Ty} : Writable element → Writable (.sequence element)
  | function {params : List Ty} {result : Ty} : params.length < 2 ^ 64 →
      (∀ param ∈ params, Writable param) → Writable result → Writable (.function params result)

/-- The values whose records are in order and all of whose lengths fit in eight bytes. -/
inductive Value.Writable : Value → Prop
  | boolean (b : Bool) : Writable (.boolean b)
  | int32 (n : Int32) : Writable (.int32 n)
  | string {text : String} : text.utf8ByteSize < 2 ^ 64 → Writable (.string text)
  | record {typeName : String} {fields : List (String × Value)} :
      typeName.utf8ByteSize < 2 ^ 64 → fields.length < 2 ^ 64 → Table.Sorted fields →
      (∀ field ∈ fields, field.1.utf8ByteSize < 2 ^ 64) → (∀ field ∈ fields, Writable field.2) →
      Writable (.record typeName fields)
  | list {elements : List Value} : elements.length < 2 ^ 64 →
      (∀ element ∈ elements, Writable element) → Writable (.list elements)

/-- A record is written like the value it is. -/
def Record.Writable (record : Record) : Prop :=
  record.toValue.Writable

theorem Value.Writable.bounded {value : Value} (h : value.Writable) : value.Bounded := by
  induction h with
  | boolean b => exact .boolean b
  | int32 n => exact .int32 n
  | string htext => exact .string htext
  | record htypeName hlength _ hnames _ ih => exact .record htypeName hlength hnames ih
  | list hlength _ ih => exact .list hlength ih

theorem Value.Writable.inOrder {value : Value} (h : value.Writable) : value.InOrder := by
  induction h with
  | boolean b => exact .boolean b
  | int32 n => exact .int32 n
  | @string text _ => exact .string text
  | record _ _ hsorted _ _ ih => exact .record (pairwise_utf8_iff.mpr hsorted) ih
  | list _ _ ih => exact .list ih

namespace Wire

/-! ## Types -/

theorem encodeTys_eq_flatMap (types : List Ty) : encodeTys types = types.flatMap encodeTy := by
  induction types with
  | nil => rfl
  | cons type types ih => rw [encodeTys, ih, List.flatMap_cons]

/-- Of several things written one after the other none is longer than all of them. -/
theorem length_le_length_flatMap {α : Type} {items : List α} {a : α} (h : a ∈ items)
    (encode : α → List UInt8) : (encode a).length ≤ (items.flatMap encode).length :=
  (List.infix_of_mem_flatten (List.mem_map_of_mem h)).length_le

/-- A type is read back if as much depth is allowed for as there are bytes. -/
theorem reads_tyWithin {type : Ty} (h : type.Writable) {depth : Nat}
    (hdepth : (encodeTy type).length ≤ depth) :
    (decodeTyWithin (depth + 1)).Reads (encodeTy type) type := by
  induction h generalizing depth with
  | boolean | int32 | string | object =>
      rw [encodeTy, decodeTyWithin, ← List.append_nil (encodeTag _)]
      exact (reads_tag (by decide)).bind (.pure _)
  | entity hname =>
      rw [encodeTy, decodeTyWithin]
      exact (reads_tag (by decide)).bind ((reads_text hname).map Ty.entity)
  | sequence _ ih =>
      rw [encodeTy, List.length_append, encodeTag, length_encodeNat] at hdepth
      obtain ⟨depth, rfl⟩ := Nat.exists_eq_add_one.mpr (show 0 < depth by omega)
      rw [encodeTy, decodeTyWithin]
      exact (reads_tag (by decide)).bind ((ih (by omega)).map Ty.sequence)
  | @function params result hlength _ _ ihparams ihresult =>
      simp only [encodeTy, List.length_append, encodeTag, length_encodeNat,
        encodeTys_eq_flatMap] at hdepth
      obtain ⟨depth, rfl⟩ := Nat.exists_eq_add_one.mpr (show 0 < depth by omega)
      have hparams : (times params.length (decodeTyWithin (depth + 1))).Reads
          (params.flatMap encodeTy) params := by
        refine .times fun param hparam => ihparams param hparam ?_
        have hle := length_le_length_flatMap hparam encodeTy
        omega
      have hresult : (decodeTyWithin (depth + 1)).Reads (encodeTy result) result :=
        ihresult (by omega)
      rw [encodeTy, decodeTyWithin, encodeTys_eq_flatMap, List.append_assoc, List.append_assoc]
      exact (reads_tag (by decide)).bind ((reads_length hlength).bind
        (hparams.bind (hresult.map (Ty.function params))))

/-- **Types are read back.** -/
theorem reads_ty {type : Ty} (h : type.Writable) : decodeTy.Reads (encodeTy type) type := by
  intro rest
  have hdepth : (encodeTy type).length ≤ (encodeTy type ++ rest).length := by simp
  exact reads_tyWithin h hdepth rest

example : encodeTy (.sequence (.entity "Año"))
    = [5, 0, 0, 0, 4, 0, 0, 0, 4, 0, 0, 0, 0, 0, 0, 0, 0x41, 0xC3, 0xB1, 0x6F] := by decide

/-! ## Values -/

/-- A record is read with its fields settled if its values are read so. -/
theorem reads_recordOf {record : Record} (h : record.Bounded) {value : Reader Value}
    (hvalue : ∀ field ∈ record.fields, value.Reads (encodeValue field.2) field.2.settled) :
    (decodeRecordOf value).Reads (encodeRecord record) record.settled := by
  cases h with
  | record htypeName hlength hnames _ =>
      have hfields : (times record.fields.length (decodeField value)).Reads
          (record.fields.flatMap encodeField) (record.fields.map (Prod.map id Value.settled)) :=
        .times_map fun field hfield =>
          (reads_text (hnames field hfield)).bind ((hvalue field hfield).map (Prod.mk field.1))
      have hread := hfields.map fun fields => Record.mk record.typeName (Table.ofList fields)
      rw [encodeRecord, decodeRecordOf, encodeFields_eq_flatMap, List.append_assoc]
      exact (reads_text htypeName).bind ((reads_length hlength).bind hread)

/-- A value, its fields in whatever order, is read as what settling makes of it if as much depth is
allowed for as there are bytes. -/
theorem reads_settledWithin {value : Value} (h : value.Bounded) {depth : Nat}
    (hdepth : (encodeValue value).length ≤ depth) :
    (decodeValueWithin (depth + 1)).Reads (encodeValue value) value.settled := by
  induction h generalizing depth with
  | boolean b =>
      rw [encodeValue, decodeValueWithin]
      exact (reads_tag (by decide)).bind ((reads_bool b).map Value.boolean)
  | int32 n =>
      rw [encodeValue, decodeValueWithin]
      exact (reads_tag (by decide)).bind ((reads_int32 n).map Value.int32)
  | string htext =>
      rw [encodeValue, decodeValueWithin]
      exact (reads_tag (by decide)).bind ((reads_text htext).map Value.string)
  | @record typeName fields htypeName hlength hnames hvalues ih =>
      have hrecord : (Record.mk typeName fields).Bounded :=
        .record htypeName hlength hnames hvalues
      simp only [encodeValue, List.length_append, encodeTag, length_encodeNat,
        encodeFields_eq_flatMap] at hdepth
      obtain ⟨depth, rfl⟩ := Nat.exists_eq_add_one.mpr (show 0 < depth by omega)
      have hfields : ∀ field ∈ fields,
          (decodeValueWithin (depth + 1)).Reads (encodeValue field.2) field.2.settled := by
        intro field hfield
        have hle := length_le_length_flatMap hfield encodeField
        rw [encodeField, List.length_append] at hle
        exact ih field hfield (by omega)
      have hread := (reads_recordOf hrecord hfields).map Record.toValue
      rw [Record.toValue_settled, encodeRecord, List.append_assoc] at hread
      rw [encodeValue, decodeValueWithin, List.append_assoc, List.append_assoc]
      exact (reads_tag (by decide)).bind hread
  | @list elements hlength _ ih =>
      simp only [encodeValue, List.length_append, encodeTag, length_encodeNat,
        encodeValues_eq_flatMap] at hdepth
      obtain ⟨depth, rfl⟩ := Nat.exists_eq_add_one.mpr (show 0 < depth by omega)
      have helements : (times elements.length (decodeValueWithin (depth + 1))).Reads
          (elements.flatMap encodeValue) (elements.map Value.settled) := by
        refine .times_map fun element helement => ih element helement ?_
        have hle := length_le_length_flatMap helement encodeValue
        omega
      rw [encodeValue, decodeValueWithin, encodeValues_eq_flatMap, List.append_assoc,
        Value.settled, Value.settledAll_eq_map]
      exact (reads_tag (by decide)).bind
        ((reads_length hlength).bind (helements.map Value.list))

/-- Values are read with their fields settled. -/
theorem reads_settled {value : Value} (h : value.Bounded) :
    decodeValue.Reads (encodeValue value) value.settled := by
  intro rest
  have hdepth : (encodeValue value).length ≤ (encodeValue value ++ rest).length := by simp
  exact reads_settledWithin h hdepth rest

theorem read_record (bytes : List UInt8) :
    decodeRecord.read bytes
      = (decodeRecordOf (decodeValueWithin (bytes.length + 1))).read bytes := by
  show decodeRecord bytes = decodeRecordOf (decodeValueWithin (bytes.length + 1)) bytes
  rw [decodeRecord]

/-- Records are read with their fields settled. -/
theorem reads_settledRecord {record : Record} (h : record.Bounded) :
    decodeRecord.Reads (encodeRecord record) record.settled := by
  intro rest
  have hwithin : ∀ field ∈ record.fields, (decodeValueWithin
      ((encodeRecord record ++ rest).length + 1)).Reads (encodeValue field.2) field.2.settled := by
    cases h with
    | record _ _ _ hvalues =>
        intro field hfield
        refine reads_settledWithin (hvalues field hfield) ?_
        have hle := length_le_length_flatMap hfield encodeField
        rw [encodeField, List.length_append, ← encodeFields_eq_flatMap] at hle
        simp only [encodeRecord, List.length_append]
        omega
  rw [read_record]
  exact reads_recordOf h hwithin rest

/-- **Values are read back.** -/
theorem reads_value {value : Value} (h : value.Writable) :
    decodeValue.Reads (encodeValue value) value := by
  have hread := reads_settled h.bounded
  rwa [h.inOrder.settled_eq] at hread

/-- **Records are read back.** -/
theorem reads_record {record : Record} (h : record.Writable) :
    decodeRecord.Reads (encodeRecord record) record := by
  have hread := reads_settledRecord h.bounded
  rwa [Record.settled_eq h.inOrder] at hread

/-! ## Round trip -/

/-- **What was written is read back, and nothing behind it is touched**, for types, values and records
of any nesting. Their forms are prefix codes. -/
theorem prefixCode_forms :
    PrefixCode encodeTy decodeTy Ty.Writable ∧
    PrefixCode encodeValue decodeValue Value.Writable ∧
    PrefixCode encodeRecord decodeRecord Record.Writable :=
  ⟨.of_reads fun _ => reads_ty, .of_reads fun _ => reads_value, .of_reads fun _ => reads_record⟩

namespace Orders

/-- A handler of orders that returns what it made of several of them. -/
def handler : Ty := .function [.entity "Ordre", .sequence .int32] (.sequence (.entity "Reçu"))

theorem writable_handler : handler.Writable := by
  refine .function (by decide) (fun param hparam => ?_) (.sequence (.entity (by decide)))
  rcases List.mem_pair.mp hparam with rfl | rfl
  · exact .entity (by decide)
  · exact .sequence .int32

/-- An order with some lines and a remark. -/
def order : Record where
  typeName := "Order"
  fields := [("Lines", .list [.record "Line" [("Count", .int32 (-2))]]), ("Remark", .string "ça va")]

theorem writable_order : order.Writable := by
  have hline : (Value.record "Line" [("Count", .int32 (-2))]).Writable := by
    refine .record (by decide) (by decide) (List.pairwise_singleton _ _) ?_ ?_
    · exact List.forall_mem_singleton.mpr (by decide)
    · exact List.forall_mem_singleton.mpr (.int32 (-2))
  refine .record (by decide) (by decide) (List.pairwise_pair.mpr (by decide)) ?_ ?_
  · exact fun field hfield => by rcases List.mem_pair.mp hfield with rfl | rfl <;> decide
  · intro field hfield
    rcases List.mem_pair.mp hfield with rfl | rfl
    · exact .list (by decide) (List.forall_mem_singleton.mpr hline)
    · exact .string (by decide)

/-- The order and the type of its handler are read back in front of anything. -/
theorem read_order (rest : List UInt8) :
    decodeRecord.read (encodeRecord order ++ rest) = some (order, rest) ∧
    decodeValue.read (encodeValue order.toValue ++ rest) = some (order.toValue, rest) ∧
    decodeTy.read (encodeTy handler ++ rest) = some (handler, rest) := by
  obtain ⟨hty, hvalue, hrecord⟩ := prefixCode_forms
  exact ⟨hrecord.read_append _ writable_order rest, hvalue.read_append _ writable_order rest,
    hty.read_append _ writable_handler rest⟩

end Orders

end Wire

end ExprTree
