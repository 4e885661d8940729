/-
# Reading back numbers, texts and sequences

A reader reads back the bytes that were written for something if it finds exactly that at their front
and leaves whatever follows them. Readers that run one after the other read back what was written one
after the other, so that everything here is put together from numbers and single bytes.
-/
import Mathlib.Algebra.Group.Nat.Defs
import Mathlib.Tactic.SplitIfs
import ExprTree.Wire.Basic

namespace ExprTree.Wire

/-! ## Reading back -/

namespace Reader

variable {α β : Type}

/-- Of the given bytes, whatever follows them, exactly `a` is read and nothing else is taken. -/
def Reads (reader : Reader α) (bytes : List UInt8) (a : α) : Prop :=
  ∀ rest, reader.read (bytes ++ rest) = some (a, rest)

theorem Reads.pure (a : α) : Reads (Pure.pure a) [] a :=
  fun _ => rfl

theorem Reads.lift {outcome : Option α} {a : α} (h : outcome = some a) :
    Reads (StateT.lift outcome) [] a := by
  intro rest
  rw [h]
  rfl

/-- Readers in sequence read back what stands in sequence. -/
theorem Reads.bind {reader : Reader α} {next : α → Reader β} {bytes more : List UInt8} {a : α}
    {b : β} (h : reader.Reads bytes a) (hnext : (next a).Reads more b) :
    (reader >>= next).Reads (bytes ++ more) b := by
  intro rest
  have hread : reader (bytes ++ (more ++ rest)) = some (a, more ++ rest) := h (more ++ rest)
  rw [List.append_assoc]
  show (reader (bytes ++ (more ++ rest))).bind (fun read => next read.1 read.2) = some (b, rest)
  rw [hread]
  exact hnext rest

/-- What is made of something read takes no further bytes. -/
theorem Reads.map {reader : Reader α} {bytes : List UInt8} {a : α} (h : reader.Reads bytes a)
    (f : α → β) : Reads (do return f (← reader)) bytes (f a) := by
  rw [← List.append_nil bytes]
  exact h.bind (.pure (f a))

/-- Several things of one sort are read one by one, each as what its form is read as. -/
theorem Reads.times_map {reader : Reader α} {encode : β → List UInt8} {f : β → α} {items : List β}
    (h : ∀ b ∈ items, reader.Reads (encode b) (f b)) :
    Reads (Wire.times items.length reader) (items.flatMap encode) (items.map f) := by
  induction items with
  | nil => exact .pure []
  | cons b items ih =>
      rw [List.forall_mem_cons] at h
      rw [List.flatMap_cons]
      exact h.1.bind ((ih h.2).map (f b :: ·))

/-- Several things of one sort are read back one by one. -/
theorem Reads.times {reader : Reader α} {encode : α → List UInt8} {items : List α}
    (h : ∀ a ∈ items, reader.Reads (encode a) a) :
    Reads (Wire.times items.length reader) (items.flatMap encode) items := by
  have hread := Reads.times_map h
  rwa [List.map_id'] at hread

/-- What is read back stands for one thing only, also when more follows. -/
theorem Reads.eq_of_append_eq {reader : Reader α} {bytes bytes' rest rest' : List UInt8} {a a' : α}
    (h : reader.Reads bytes a) (h' : reader.Reads bytes' a')
    (heq : bytes ++ rest = bytes' ++ rest') : a = a' ∧ rest = rest' := by
  have hread := h rest
  rw [heq, h' rest', Option.some.injEq, Prod.mk.injEq] at hread
  exact ⟨hread.1.symm, hread.2.symm⟩

end Reader

/-- A way to write and to read things: whatever follows what was written, exactly that is read and
exactly that is taken. No form stands at the front of another one, and each form stands for one thing
only. -/
structure PrefixCode {α : Type} (encode : α → List UInt8) (reader : Reader α) (writable : α → Prop) :
    Prop where
  read_append : ∀ a, writable a → ∀ rest, reader.read (encode a ++ rest) = some (a, rest)
  eq_of_isPrefix : ∀ a b, writable a → writable b → encode a <+: encode b → a = b
  injective : ∀ a b, writable a → writable b → encode a = encode b → a = b

/-- What is read back, whatever follows, is written in a prefix code. -/
theorem PrefixCode.of_reads {α : Type} {encode : α → List UInt8} {reader : Reader α}
    {writable : α → Prop} (h : ∀ a, writable a → reader.Reads (encode a) a) :
    PrefixCode encode reader writable := by
  have hprefix : ∀ a b, writable a → writable b → encode a <+: encode b → a = b := by
    rintro a b ha hb ⟨rest, hrest⟩
    rw [← List.append_nil (encode b)] at hrest
    exact ((h a ha).eq_of_append_eq (h b hb) hrest).1
  exact ⟨h, hprefix, fun a b ha hb heq => hprefix a b ha hb (heq ▸ List.prefix_refl _)⟩

/-! ## Numbers -/

theorem length_encodeNat (width n : Nat) : (encodeNat width n).length = width := by
  induction width generalizing n with
  | zero => rfl
  | succ width ih => rw [encodeNat, List.length_cons, ih]

/-- A number that has room in the bytes given to it is read back. -/
theorem reads_nat {width n : Nat} (h : n < 256 ^ width) :
    (decodeNat width).Reads (encodeNat width n) n := by
  induction width generalizing n with
  | zero =>
      rw [Nat.pow_zero, Nat.lt_one_iff] at h
      subst h
      exact .pure 0
  | succ width ih =>
      have hhigh : n / 256 < 256 ^ width := by
        rw [Nat.pow_succ] at h
        exact Nat.div_lt_of_lt_mul (by rwa [Nat.mul_comm])
      have hbyte : decodeByte.Reads [UInt8.ofNat n] (UInt8.ofNat n) := fun _ => rfl
      have hvalue : (UInt8.ofNat n).toNat + 256 * (n / 256) = n := by
        rw [UInt8.toNat_ofNat']
        exact Nat.mod_add_div n 256
      have hread : (decodeNat (width + 1)).Reads ([UInt8.ofNat n] ++ encodeNat width (n / 256))
          ((UInt8.ofNat n).toNat + 256 * (n / 256)) := by
        rw [decodeNat]
        refine hbyte.bind ?_
        exact (ih hhigh).map fun high => (UInt8.ofNat n).toNat + 256 * high
      rwa [hvalue] at hread

theorem reads_tag {tag : Nat} (h : tag < 2 ^ 32) : decodeTag.Reads (encodeTag tag) tag :=
  reads_nat (by simpa using h)

theorem reads_length {length : Nat} (h : length < 2 ^ 64) :
    decodeLength.Reads (encodeLength length) length :=
  reads_nat (by simpa using h)

theorem reads_int32 (n : Int32) : decodeInt32.Reads (encodeInt32 n) n := by
  have hnat : (decodeNat 4).Reads (encodeInt32 n) n.toUInt32.toNat :=
    reads_nat (by simpa using n.toUInt32.toNat_lt)
  have hread := hnat.map fun n => (UInt32.ofNat n).toInt32
  rwa [UInt32.ofNat_toNat] at hread

theorem reads_bool (b : Bool) : decodeBool.Reads (encodeBool b) b := by
  cases b <;> exact fun _ => rfl

/-! ## Texts -/

theorem reads_bytes (bytes : List UInt8) : (decodeBytes bytes.length).Reads bytes bytes := by
  intro rest
  show (if bytes.length ≤ (bytes ++ rest).length then _ else none) = _
  rw [if_pos (by simp), List.splitAt_eq, List.take_left, List.drop_left]

/-- A text is read back from its length and its UTF-8 form. -/
theorem reads_text {text : String} (h : text.utf8ByteSize < 2 ^ 64) :
    decodeText.Reads (encodeText text) text := by
  have hbytes : (decodeBytes text.utf8ByteSize).Reads text.toUTF8.data.toList
      text.toUTF8.data.toList := reads_bytes text.toUTF8.data.toList
  have hutf8 : String.fromUTF8? ⟨text.toUTF8.data.toList.toArray⟩ = some text := by
    rw [Array.toArray_toList]
    exact dif_pos text.isValidUTF8
  rw [decodeText, encodeText, ← List.append_nil text.toUTF8.data.toList]
  refine (reads_length h).bind ?_
  refine hbytes.bind ?_
  exact .lift hutf8

/-! ## Reading nothing else -/

namespace Reader

variable {α β : Type} {bytes rest : List UInt8}

/-- Readers in sequence read where the first one does and the next one does from there. -/
theorem read_bind_eq_some {reader : Reader α} {next : α → Reader β} {b : β} :
    (reader >>= next).read bytes = some (b, rest) ↔
      ∃ a middle, reader.read bytes = some (a, middle) ∧ (next a).read middle = some (b, rest) := by
  show (reader bytes).bind (fun read => next read.1 read.2) = some (b, rest) ↔ _
  rw [Option.bind_eq_some_iff, Prod.exists]
  rfl

theorem read_pure_eq_some {a b : α} :
    Reader.read (pure a) bytes = some (b, rest) ↔ a = b ∧ bytes = rest := by
  show some (a, bytes) = some (b, rest) ↔ _
  rw [Option.some.injEq, Prod.mk.injEq]

theorem read_lift_eq_some {outcome : Option α} {a : α} :
    Reader.read (StateT.lift outcome) bytes = some (a, rest) ↔ outcome = some a ∧ bytes = rest := by
  cases outcome with
  | none => exact iff_of_false nofun nofun
  | some a' =>
      rw [Option.some.injEq]
      exact read_pure_eq_some

/-- What is read is what the reader makes of something good whose form it takes. -/
def ReadsOnly (reader : Reader α) (encode : β → List UInt8) (good : β → Prop) (f : β → α) : Prop :=
  ∀ bytes a rest, reader.read bytes = some (a, rest) →
    ∃ b, good b ∧ f b = a ∧ bytes = encode b ++ rest

/-- Several things are read only if each of them was written. -/
theorem ReadsOnly.times {reader : Reader α} {encode : β → List UInt8} {good : β → Prop} {f : β → α}
    (h : reader.ReadsOnly encode good f) {count : Nat} {items : List α}
    (hread : (Wire.times count reader).read bytes = some (items, rest)) :
    ∃ written : List β, written.length = count ∧ (∀ b ∈ written, good b) ∧ written.map f = items ∧
      bytes = written.flatMap encode ++ rest := by
  induction count generalizing bytes items with
  | zero =>
      obtain ⟨rfl, rfl⟩ := read_pure_eq_some.mp hread
      exact ⟨[], rfl, List.forall_mem_nil _, rfl, rfl⟩
  | succ count ih =>
      obtain ⟨a, middle, ha, hread⟩ := read_bind_eq_some.mp hread
      obtain ⟨as, last, has, hread⟩ := read_bind_eq_some.mp hread
      obtain ⟨rfl, rfl⟩ := read_pure_eq_some.mp hread
      obtain ⟨b, hb, rfl, rfl⟩ := h _ _ _ ha
      obtain ⟨written, rfl, hwritten, rfl, rfl⟩ := ih has
      refine ⟨b :: written, rfl, List.forall_mem_cons.mpr ⟨hb, hwritten⟩, rfl, ?_⟩
      rw [List.flatMap_cons, List.append_assoc]

end Reader

section Primitives

open Reader

variable {bytes rest : List UInt8}

/-- The number read has room in the bytes it was read from, and these are its bytes. -/
theorem of_read_nat {width n : Nat} (h : (decodeNat width).read bytes = some (n, rest)) :
    n < 256 ^ width ∧ bytes = encodeNat width n ++ rest := by
  induction width generalizing bytes n with
  | zero =>
      obtain ⟨rfl, rfl⟩ := read_pure_eq_some.mp h
      exact ⟨Nat.zero_lt_one, rfl⟩
  | succ width ih =>
      obtain ⟨low, middle, hlow, h⟩ := read_bind_eq_some.mp h
      obtain ⟨high, last, hhigh, h⟩ := read_bind_eq_some.mp h
      obtain ⟨rfl, rfl⟩ := read_pure_eq_some.mp h
      obtain ⟨hlt, rfl⟩ := ih hhigh
      have hbyte : low.toNat < 256 := low.toNat_lt
      have hdiv : (low.toNat + 256 * high) / 256 = high := by omega
      have hlowest : UInt8.ofNat (low.toNat + 256 * high) = low := by
        rw [← UInt8.toNat_inj, UInt8.toNat_ofNat']
        omega
      refine ⟨?_, ?_⟩
      · rw [Nat.pow_succ]
        omega
      · rw [encodeNat, hdiv, hlowest]
        cases bytes with
        | nil => cases hlow
        | cons byte bytes =>
            cases hlow
            rfl

theorem of_read_tag {tag : Nat} (h : decodeTag.read bytes = some (tag, rest)) :
    bytes = encodeTag tag ++ rest :=
  (of_read_nat h).2

theorem of_read_length {length : Nat} (h : decodeLength.read bytes = some (length, rest)) :
    length < 2 ^ 64 ∧ bytes = encodeLength length ++ rest := by
  obtain ⟨hlt, heq⟩ := of_read_nat h
  exact ⟨by simpa using hlt, heq⟩

theorem of_read_int32 {n : Int32} (h : decodeInt32.read bytes = some (n, rest)) :
    bytes = encodeInt32 n ++ rest := by
  obtain ⟨word, middle, hword, h⟩ := read_bind_eq_some.mp h
  obtain ⟨rfl, rfl⟩ := read_pure_eq_some.mp h
  obtain ⟨hlt, rfl⟩ := of_read_nat hword
  have hround : (UInt32.ofNat word).toNat = word := UInt32.toNat_ofNat_of_lt' (by simpa using hlt)
  rw [encodeInt32, UInt32.toUInt32_toInt32, hround]

theorem of_read_bool {b : Bool} (h : decodeBool.read bytes = some (b, rest)) :
    bytes = encodeBool b ++ rest := by
  obtain ⟨byte, middle, hbyte, hvalue⟩ := read_bind_eq_some.mp h
  cases bytes with
  | nil => cases hbyte
  | cons first bytes =>
      cases hbyte
      split_ifs at hvalue with hzero hone
      · obtain ⟨rfl, rfl⟩ := read_pure_eq_some.mp hvalue
        rw [hzero]
        rfl
      · obtain ⟨rfl, rfl⟩ := read_pure_eq_some.mp hvalue
        rw [hone]
        rfl
      · cases hvalue

theorem of_read_bytes {count : Nat} {taken : List UInt8}
    (h : (decodeBytes count).read bytes = some (taken, rest)) :
    taken.length = count ∧ bytes = taken ++ rest := by
  change (if count ≤ bytes.length then some (bytes.splitAt count) else none) = _ at h
  split_ifs at h with hcount
  rw [List.splitAt_eq, Option.some.injEq, Prod.mk.injEq] at h
  obtain ⟨rfl, rfl⟩ := h
  exact ⟨List.length_take_of_le hcount, (List.take_append_drop count bytes).symm⟩

theorem of_read_text {text : String} (h : decodeText.read bytes = some (text, rest)) :
    text.utf8ByteSize < 2 ^ 64 ∧ bytes = encodeText text ++ rest := by
  obtain ⟨length, middle, hlength, h⟩ := read_bind_eq_some.mp h
  obtain ⟨taken, last, htaken, h⟩ := read_bind_eq_some.mp h
  obtain ⟨hutf8, rfl⟩ := read_lift_eq_some.mp h
  obtain ⟨hlt, rfl⟩ := of_read_length hlength
  obtain ⟨rfl, rfl⟩ := of_read_bytes htaken
  -- The bytes taken are the UTF-8 form of the text, and there are as many as its length says.
  have hform : text.toUTF8 = ⟨taken.toArray⟩ := by
    unfold String.fromUTF8? at hutf8
    split_ifs at hutf8
    rw [← Option.some.inj hutf8]
    rfl
  have hsize : text.utf8ByteSize = taken.length := by
    show text.toUTF8.data.size = taken.length
    rw [hform, List.size_toArray]
  refine ⟨hsize ▸ hlt, ?_⟩
  rw [encodeText, hsize, hform, List.append_assoc]

end Primitives

end ExprTree.Wire
