/-
# Reading is canonical

What is read as a type was written for that type. What is read as a value or a record was written for
it up to the fields: these are accepted in any order and any number of times, the last one of a name
stays, and writing what was read gives the same bytes again just if the fields stood in order.
-/
import ExprTree.Proofs.Wire.RoundTrip

namespace ExprTree

open Wire Reader

namespace Wire

variable {bytes rest : List UInt8}

/-! ## Types -/

/-- Only types are read, at any depth. -/
theorem readsOnly_tyWithin (depth : Nat) :
    (decodeTyWithin depth).ReadsOnly encodeTy Ty.Writable id := by
  induction depth with
  | zero => exact fun _ _ _ h => by cases h
  | succ depth ih =>
      intro bytes type rest h
      rw [decodeTyWithin] at h
      obtain ⟨tag, middle, htag, hform⟩ := read_bind_eq_some.mp h
      obtain rfl := of_read_tag htag
      split at hform
      · obtain ⟨rfl, rfl⟩ := read_pure_eq_some.mp hform
        exact ⟨.boolean, .boolean, rfl, by rw [encodeTy]⟩
      · obtain ⟨rfl, rfl⟩ := read_pure_eq_some.mp hform
        exact ⟨.int32, .int32, rfl, by rw [encodeTy]⟩
      · obtain ⟨rfl, rfl⟩ := read_pure_eq_some.mp hform
        exact ⟨.string, .string, rfl, by rw [encodeTy]⟩
      · obtain ⟨rfl, rfl⟩ := read_pure_eq_some.mp hform
        exact ⟨.object, .object, rfl, by rw [encodeTy]⟩
      · obtain ⟨name, last, hname, hend⟩ := read_bind_eq_some.mp hform
        obtain ⟨rfl, rfl⟩ := read_pure_eq_some.mp hend
        obtain ⟨hsize, rfl⟩ := of_read_text hname
        exact ⟨.entity name, .entity hsize, rfl, by rw [encodeTy, List.append_assoc]⟩
      · obtain ⟨element, last, helement, hend⟩ := read_bind_eq_some.mp hform
        obtain ⟨rfl, rfl⟩ := read_pure_eq_some.mp hend
        obtain ⟨_, hwritable, rfl, rfl⟩ := ih _ _ _ helement
        exact ⟨_, .sequence hwritable, rfl, by rw [encodeTy, List.append_assoc]⟩
      · obtain ⟨count, middle, hcount, hparts⟩ := read_bind_eq_some.mp hform
        obtain ⟨params, middle, hparams, hlast⟩ := read_bind_eq_some.mp hparts
        obtain ⟨result, middle, hresult, hend⟩ := read_bind_eq_some.mp hlast
        obtain ⟨rfl, rfl⟩ := read_pure_eq_some.mp hend
        obtain ⟨hlt, rfl⟩ := of_read_length hcount
        obtain ⟨written, rfl, hwritten, rfl, rfl⟩ := ih.times hparams
        obtain ⟨_, hwritable, rfl, rfl⟩ := ih _ _ _ hresult
        refine ⟨_, .function hlt hwritten hwritable, ?_, ?_⟩
        · rw [List.map_id, id, id]
        · simp only [encodeTy, encodeTys_eq_flatMap, List.append_assoc]
      · cases hform

/-! ## Values -/

/-- Only records are read if only values are read for their fields. -/
theorem readsOnly_recordOf {value : Reader Value}
    (h : value.ReadsOnly encodeValue Value.Bounded Value.settled) :
    (decodeRecordOf value).ReadsOnly encodeRecord Record.Bounded Record.settled := by
  have hfield : (decodeField value).ReadsOnly encodeField
      (fun field => field.1.utf8ByteSize < 2 ^ 64 ∧ field.2.Bounded)
      (Prod.map id Value.settled) := by
    intro bytes field rest hread
    obtain ⟨name, middle, hname, hvalue⟩ := read_bind_eq_some.mp hread
    obtain ⟨held, middle, hheld, hend⟩ := read_bind_eq_some.mp hvalue
    obtain ⟨rfl, rfl⟩ := read_pure_eq_some.mp hend
    obtain ⟨hsize, rfl⟩ := of_read_text hname
    obtain ⟨written, hbounded, rfl, rfl⟩ := h _ _ _ hheld
    exact ⟨(name, written), ⟨hsize, hbounded⟩, rfl, by rw [encodeField, List.append_assoc]⟩
  intro bytes record rest hread
  obtain ⟨typeName, middle, htypeName, hparts⟩ := read_bind_eq_some.mp hread
  obtain ⟨count, middle, hcount, hlast⟩ := read_bind_eq_some.mp hparts
  obtain ⟨entries, middle, hentries, hend⟩ := read_bind_eq_some.mp hlast
  obtain ⟨rfl, rfl⟩ := read_pure_eq_some.mp hend
  obtain ⟨hsize, rfl⟩ := of_read_text htypeName
  obtain ⟨hlt, rfl⟩ := of_read_length hcount
  obtain ⟨fields, rfl, hfields, rfl, rfl⟩ := hfield.times hentries
  refine ⟨⟨typeName, fields⟩, ?_, rfl, ?_⟩
  · exact .record hsize hlt (fun field hmem => (hfields field hmem).1)
      fun field hmem => (hfields field hmem).2
  · simp only [encodeRecord, encodeFields_eq_flatMap, List.append_assoc]

/-- Only values are read, at any depth. -/
theorem readsOnly_valueWithin (depth : Nat) :
    (decodeValueWithin depth).ReadsOnly encodeValue Value.Bounded Value.settled := by
  induction depth with
  | zero => exact fun _ _ _ h => by cases h
  | succ depth ih =>
      intro bytes value rest h
      rw [decodeValueWithin] at h
      obtain ⟨tag, middle, htag, hform⟩ := read_bind_eq_some.mp h
      obtain rfl := of_read_tag htag
      split at hform
      · obtain ⟨b, middle, hb, hend⟩ := read_bind_eq_some.mp hform
        obtain ⟨rfl, rfl⟩ := read_pure_eq_some.mp hend
        obtain rfl := of_read_bool hb
        exact ⟨.boolean b, .boolean b, rfl, by rw [encodeValue, List.append_assoc]⟩
      · obtain ⟨n, middle, hn, hend⟩ := read_bind_eq_some.mp hform
        obtain ⟨rfl, rfl⟩ := read_pure_eq_some.mp hend
        obtain rfl := of_read_int32 hn
        exact ⟨.int32 n, .int32 n, rfl, by rw [encodeValue, List.append_assoc]⟩
      · obtain ⟨text, middle, htext, hend⟩ := read_bind_eq_some.mp hform
        obtain ⟨rfl, rfl⟩ := read_pure_eq_some.mp hend
        obtain ⟨hsize, rfl⟩ := of_read_text htext
        exact ⟨.string text, .string hsize, rfl, by rw [encodeValue, List.append_assoc]⟩
      · obtain ⟨record, middle, hrecord, hend⟩ := read_bind_eq_some.mp hform
        obtain ⟨rfl, rfl⟩ := read_pure_eq_some.mp hend
        obtain ⟨written, hbounded, rfl, rfl⟩ := readsOnly_recordOf ih _ _ _ hrecord
        refine ⟨written.toValue, hbounded, written.toValue_settled.symm, ?_⟩
        rw [encodeValue_toValue, List.append_assoc]
      · obtain ⟨count, middle, hcount, hlast⟩ := read_bind_eq_some.mp hform
        obtain ⟨elements, middle, helements, hend⟩ := read_bind_eq_some.mp hlast
        obtain ⟨rfl, rfl⟩ := read_pure_eq_some.mp hend
        obtain ⟨hlt, rfl⟩ := of_read_length hcount
        obtain ⟨written, rfl, hwritten, rfl, rfl⟩ := ih.times helements
        refine ⟨.list written, .list hlt hwritten, ?_, ?_⟩
        · rw [Value.settled, Value.settledAll_eq_map]
        · simp only [encodeValue, encodeValues_eq_flatMap, List.append_assoc]
      · cases hform

/-! ## Fields in any order -/

theorem eq_of_tag_append_eq {m n : Nat} (hm : m < 2 ^ 32) (hn : n < 2 ^ 32)
    {more more' : List UInt8} (h : encodeTag m ++ more = encodeTag n ++ more') :
    m = n ∧ more = more' :=
  (reads_tag hm).eq_of_append_eq (reads_tag hn) h

theorem eq_of_length_append_eq {m n : Nat} (hm : m < 2 ^ 64) (hn : n < 2 ^ 64)
    {more more' : List UInt8} (h : encodeLength m ++ more = encodeLength n ++ more') :
    m = n ∧ more = more' :=
  (reads_length hm).eq_of_append_eq (reads_length hn) h

theorem eq_of_text_append_eq {s t : String} (hs : s.utf8ByteSize < 2 ^ 64)
    (ht : t.utf8ByteSize < 2 ^ 64) {more more' : List UInt8}
    (h : encodeText s ++ more = encodeText t ++ more') : s = t ∧ more = more' :=
  (reads_text hs).eq_of_append_eq (reads_text ht) h

/-- No form of another good thing begins like that of `a`, whatever follows the two. -/
def Unmistakable {α : Type} (encode : α → List UInt8) (good : α → Prop) (a : α) : Prop :=
  ∀ b more more', good b → encode a ++ more = encode b ++ more' → a = b ∧ more = more'

/-- As many unmistakable things are unmistakable together. -/
theorem eq_of_flatMap_append_eq {α : Type} {encode : α → List UInt8} {good : α → Prop}
    {items items' : List α} (h : ∀ a ∈ items, Unmistakable encode good a)
    (hgood : ∀ b ∈ items', good b) (hlength : items.length = items'.length)
    {more more' : List UInt8}
    (heq : items.flatMap encode ++ more = items'.flatMap encode ++ more') :
    items = items' ∧ more = more' := by
  induction items generalizing items' with
  | nil =>
      obtain rfl := List.length_eq_zero_iff.mp hlength.symm
      exact ⟨rfl, heq⟩
  | cons a items ih =>
      obtain ⟨b, items', rfl⟩ := List.exists_cons_of_length_eq_add_one hlength.symm
      rw [List.forall_mem_cons] at h hgood
      rw [List.flatMap_cons, List.flatMap_cons, List.append_assoc, List.append_assoc] at heq
      obtain ⟨rfl, hothers⟩ := h.1 b _ _ hgood.1 heq
      obtain ⟨rfl, rfl⟩ := ih h.2 hgood.2 (by simpa using hlength) hothers
      exact ⟨rfl, rfl⟩

/-- The number of the form of a value. -/
def formOf : Value → Nat
  | .boolean _ => 0
  | .int32 _ => 1
  | .string _ => 2
  | .record .. => 3
  | .list _ => 4

/-- The bytes behind the number of the form of a value. -/
def encodeHeld : Value → List UInt8
  | .boolean b => encodeBool b
  | .int32 n => encodeInt32 n
  | .string text => encodeText text
  | .record typeName fields => encodeRecord ⟨typeName, fields⟩
  | .list elements => encodeLength elements.length ++ encodeValues elements

theorem held_eq_of_append_eq {value other : Value} {more more' : List UInt8}
    (h : encodeValue value ++ more = encodeValue other ++ more') :
    formOf value = formOf other ∧ encodeHeld value ++ more = encodeHeld other ++ more' := by
  have hparts : ∀ value : Value, encodeValue value = encodeTag (formOf value) ++ encodeHeld value := by
    intro value
    cases value with
    | record typeName fields => exact encodeValue_toValue ⟨typeName, fields⟩
    | _ => simp only [encodeValue, formOf, encodeHeld, List.append_assoc]
  have hform : ∀ value : Value, formOf value < 2 ^ 32 := by
    intro value
    unfold formOf
    split <;> decide
  rw [hparts, hparts, List.append_assoc, List.append_assoc] at h
  exact eq_of_tag_append_eq (hform value) (hform other) h

/-- **A form is that of one value only**, its fields in the order in which the form lists them. -/
theorem unmistakable_value {value : Value} (h : value.Bounded) :
    Unmistakable encodeValue Value.Bounded value := by
  induction h with
  | boolean b =>
      intro other more more' hother heq
      obtain ⟨hform, hheld⟩ := held_eq_of_append_eq heq
      cases hother with
      | boolean b' =>
          obtain ⟨rfl, rfl⟩ := (reads_bool b).eq_of_append_eq (reads_bool b') hheld
          exact ⟨rfl, rfl⟩
      | _ => cases hform
  | int32 n =>
      intro other more more' hother heq
      obtain ⟨hform, hheld⟩ := held_eq_of_append_eq heq
      cases hother with
      | int32 n' =>
          obtain ⟨rfl, rfl⟩ := (reads_int32 n).eq_of_append_eq (reads_int32 n') hheld
          exact ⟨rfl, rfl⟩
      | _ => cases hform
  | string htext =>
      intro other more more' hother heq
      obtain ⟨hform, hheld⟩ := held_eq_of_append_eq heq
      cases hother with
      | string htext' =>
          obtain ⟨rfl, rfl⟩ := eq_of_text_append_eq htext htext' hheld
          exact ⟨rfl, rfl⟩
      | _ => cases hform
  | @record typeName fields htypeName hlength hnames _ ih =>
      intro other more more' hother heq
      obtain ⟨hform, hheld⟩ := held_eq_of_append_eq heq
      cases hother with
      | record htypeName' hlength' hnames' hvalues' =>
          have hfields : ∀ field ∈ fields, Unmistakable encodeField
              (fun field => field.1.utf8ByteSize < 2 ^ 64 ∧ field.2.Bounded) field := by
            rintro field hfield ⟨name, held⟩ more more' ⟨hname, hbounded⟩ heq
            simp only [encodeField, List.append_assoc] at heq
            obtain ⟨rfl, hheld⟩ := eq_of_text_append_eq (hnames field hfield) hname heq
            obtain ⟨rfl, rfl⟩ := ih field hfield held _ _ hbounded hheld
            exact ⟨rfl, rfl⟩
          simp only [encodeHeld, encodeRecord, encodeFields_eq_flatMap, List.append_assoc] at hheld
          obtain ⟨rfl, hcount⟩ := eq_of_text_append_eq htypeName htypeName' hheld
          obtain ⟨hcount, hlisted⟩ := eq_of_length_append_eq hlength hlength' hcount
          obtain ⟨rfl, rfl⟩ := eq_of_flatMap_append_eq hfields
            (fun field hfield => ⟨hnames' field hfield, hvalues' field hfield⟩) hcount hlisted
          exact ⟨rfl, rfl⟩
      | _ => cases hform
  | list hlength _ ih =>
      intro other more more' hother heq
      obtain ⟨hform, hheld⟩ := held_eq_of_append_eq heq
      cases hother with
      | list hlength' helements' =>
          simp only [encodeHeld, encodeValues_eq_flatMap, List.append_assoc] at hheld
          obtain ⟨hcount, hlisted⟩ := eq_of_length_append_eq hlength hlength' hheld
          obtain ⟨rfl, rfl⟩ := eq_of_flatMap_append_eq ih helements' hcount hlisted
          exact ⟨rfl, rfl⟩
      | _ => cases hform

/-- A form is that of one record only. -/
theorem unmistakable_record {record : Record} (h : record.Bounded) :
    Unmistakable encodeRecord Record.Bounded record := by
  intro other more more' hother heq
  have hvalues : encodeValue record.toValue ++ more = encodeValue other.toValue ++ more' := by
    rw [encodeValue_toValue, encodeValue_toValue, List.append_assoc, List.append_assoc, heq]
  obtain ⟨hvalue, hmore⟩ := unmistakable_value h _ _ _ hother hvalues
  exact ⟨Record.toValue_injective hvalue, hmore⟩

/-! ## Canonical reading -/

/-- Reading is canonical up to the order of fields. Every form is accepted, in whatever order and
however often it lists fields, and what it is of is settled. Nothing else is read: the bytes taken are
the form of exactly one thing, and what is read is that thing settled. It is read from its own form
again, that form is no longer than the bytes taken, and it is these bytes just if they listed the
fields in order. -/
structure CanonicalUpToOrder {α : Type} (encode : α → List UInt8) (reader : Reader α)
    (bounded inOrder : α → Prop) (settled : α → α) : Prop where
  read_append : ∀ written, bounded written →
    ∀ rest, reader.read (encode written ++ rest) = some (settled written, rest)
  exists_written : ∀ bytes a rest, reader.read bytes = some (a, rest) →
    ∃ front written, bytes = front ++ rest ∧
      (bounded written ∧ encode written = front ∧
        ∀ other, bounded other → encode other = front → other = written) ∧
      settled written = a ∧
      (∀ more, reader.read (encode a ++ more) = some (a, more)) ∧
      (encode a).length ≤ front.length ∧
      (encode a = front ↔ inOrder written)

theorem CanonicalUpToOrder.of_readsOnly {α : Type} {encode : α → List UInt8} {reader : Reader α}
    {bounded inOrder : α → Prop} {settled : α → α}
    (hreads : ∀ a, bounded a → reader.Reads (encode a) (settled a))
    (hreadsOnly : reader.ReadsOnly encode bounded settled)
    (hunmistakable : ∀ a, bounded a → Unmistakable encode bounded a)
    (hbounded : ∀ a, bounded a → bounded (settled a))
    (hsettled : ∀ a, bounded a → (settled a = a ↔ inOrder a))
    (hinOrder : ∀ a, bounded a → inOrder (settled a))
    (hlength : ∀ a, bounded a → (encode (settled a)).length ≤ (encode a).length) :
    CanonicalUpToOrder encode reader bounded inOrder settled := by
  have hunique : ∀ a b, bounded a → bounded b → encode a = encode b → a = b := by
    intro a b ha hb heq
    exact (hunmistakable a ha b [] [] hb (by rw [heq])).1
  refine ⟨hreads, fun bytes a rest hread => ?_⟩
  obtain ⟨written, hwritten, rfl, rfl⟩ := hreadsOnly _ _ _ hread
  refine ⟨encode written, written, rfl, ⟨hwritten, rfl, fun other hother => ?_⟩, rfl,
    fun more => ?_, hlength written hwritten, ?_⟩
  · exact hunique other written hother hwritten
  · -- What is settled is read as itself.
    have hagain := hreads (settled written) (hbounded written hwritten) more
    rwa [(hsettled _ (hbounded written hwritten)).mpr (hinOrder written hwritten)] at hagain
  · rw [← hsettled written hwritten]
    refine ⟨hunique _ _ (hbounded written hwritten) hwritten, fun heq => ?_⟩
    rw [heq]

/-- **Reading is canonical up to the order of fields.** A type is read from its own form only. Values
and records are read from forms that list fields in any order; of the fields of one name the last one
stays. -/
theorem read_canonical :
    (∀ bytes type rest, decodeTy.read bytes = some (type, rest) → bytes = encodeTy type ++ rest) ∧
    CanonicalUpToOrder encodeValue decodeValue Value.Bounded Value.InOrder Value.settled ∧
    CanonicalUpToOrder encodeRecord decodeRecord Record.Bounded Record.InOrder Record.settled ∧
    ∀ (record : Record) (name : String),
      record.settled.get? name = (record.fields.reverse.lookup name).map Value.settled := by
  refine ⟨fun bytes type rest hread => ?_, ?_, ?_, fun record name => ?_⟩
  · obtain ⟨_, -, rfl, hbytes⟩ := readsOnly_tyWithin _ _ _ _ hread
    exact hbytes
  · refine .of_readsOnly (fun _ => reads_settled) (fun _ => readsOnly_valueWithin _ _)
      (fun _ => unmistakable_value) (fun _ => Value.Bounded.settled)
      (fun _ => Value.Bounded.settled_eq_iff) (fun _ => Value.Bounded.inOrder_settled)
      (fun _ => length_encodeValue_settled_le)
  · refine .of_readsOnly (fun _ => reads_settledRecord) (fun bytes record rest hread => ?_)
      (fun _ => unmistakable_record) (fun _ => Record.Bounded.settled)
      (fun _ => Record.Bounded.settled_eq_iff) (fun _ => Record.Bounded.inOrder_settled)
      (fun _ => length_encodeRecord_settled_le)
    rw [read_record] at hread
    exact readsOnly_recordOf (readsOnly_valueWithin _) _ _ _ hread
  · exact record.get?_settled name

namespace Scrambled

/-- An order as some other writer listed it, not in order and with a field of a line twice. -/
def order : Record where
  typeName := "Order"
  fields := [
    ("b", .list [.record "Line" [("n", .int32 1), ("n", .int32 2)]]),
    ("a", .boolean true)]

/-- What is read of it. -/
def tidy : Record where
  typeName := "Order"
  fields := [("a", .boolean true), ("b", .list [.record "Line" [("n", .int32 2)]])]

theorem bounded_order : order.Bounded := by
  have hline : (Value.record "Line" [("n", .int32 1), ("n", .int32 2)]).Bounded := by
    refine .record (by decide) (by decide) (by decide) fun field hfield => ?_
    rcases List.mem_pair.mp hfield with rfl | rfl
    · exact .int32 1
    · exact .int32 2
  refine .record (by decide) (by decide) (by decide) fun field hfield => ?_
  rcases List.mem_pair.mp hfield with rfl | rfl
  · exact .list (by decide) (List.forall_mem_singleton.mpr hline)
  · exact .boolean true

theorem settled_order : order.settled = tidy := by decide

/-- The order is read as the tidy one, whose own form is another and no longer, and is read as the
tidy one as well. -/
theorem read_scrambled :
    decodeRecord.read (encodeRecord order ++ [7]) = some (tidy, [7]) ∧
    decodeRecord.read (encodeRecord tidy ++ [7]) = some (tidy, [7]) ∧
    (encodeRecord tidy).length ≤ (encodeRecord order).length ∧
    encodeRecord tidy ≠ encodeRecord order ∧
    decodeTy.read [5, 0, 0, 0, 1, 0, 0, 0, 7] = some (.sequence .int32, [7]) ∧
    [5, 0, 0, 0, 1, 0, 0, 0, 7] = encodeTy (.sequence .int32) ++ [7] := by
  obtain ⟨hty, -, hrecord, -⟩ := read_canonical
  have hread := hrecord.read_append order bounded_order [7]
  rw [settled_order] at hread
  obtain ⟨front, written, hbytes, ⟨-, -, hunique⟩, -, hagain, hlength, hiff⟩ :=
    hrecord.exists_written _ _ _ hread
  obtain rfl := List.append_cancel_right hbytes
  obtain rfl := hunique order bounded_order rfl
  have hdisorder : ¬ order.InOrder := fun h => by
    have heq := Record.settled_eq h
    rw [settled_order] at heq
    exact absurd heq (by decide)
  have htype : decodeTy.read [5, 0, 0, 0, 1, 0, 0, 0, 7] = some (.sequence .int32, [7]) := by decide
  exact ⟨hread, hagain [7], hlength, fun heq => hdisorder (hiff.mp heq), htype, hty _ _ _ htype⟩

end Scrambled

end Wire

end ExprTree
