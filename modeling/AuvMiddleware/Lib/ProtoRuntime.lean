import AuvMiddleware.Lib.Bytes
import AuvMiddleware.Lib.FieldStream

/-!
# The protobuf runtime under generated code

The calls that generated code makes to write and to read the fields of a message are a parameter,
and what the runtime's documentation promises of them are its laws. Over them stand the field
writers and readers that generated code is made of, and for each kind of field the round trip.
-/

namespace AuvMiddleware
open FieldStream

/-- A writer gives the bytes of one value, without its tag. A reader gets the input from where the
parser stands, and gives what it read and the input after that. `unknownField` is also told inside
how many messages it stands, and the tag. -/
structure ProtoRuntime where
  writeTag : ℕ → Bytes
  writeInt64 : Int64 → Bytes
  writeUInt64 : UInt64 → Bytes
  writeUInt32 : UInt32 → Bytes
  writeEnum : Int32 → Bytes
  writeFloat : BitVec 32 → Bytes
  /-- A string, or a message inside another one. -/
  writeDelimited : Bytes → Bytes
  writeFixedPacked : List (BitVec 32) → Bytes
  /-- What is made of the bytes of a whole message. -/
  serializeAsString : Bytes → Bytes
  readTag : Bytes → Option (ℕ × Bytes)
  readVarint64 : Bytes → Option (UInt64 × Bytes)
  readVarint32 : Bytes → Option (UInt32 × Bytes)
  loadFloat : Bytes → Option (BitVec 32 × Bytes)
  readDelimited : Bytes → Option (Bytes × Bytes)
  packedFloatParser : Bytes → Option (List (BitVec 32) × Bytes)
  verifyUtf8 : Bytes → Bool
  unknownField : ℕ → ℕ → Bytes → Option Bytes

namespace ProtoRuntime

/-- `INT_MAX - 16`, the longest length that is read; up to `INT_MAX` is written. -/
def maxSize : ℕ := 2 ^ 31 - 17

/-- What is written is read back, no reader gives more than it takes, and a field that the parser
does not know is passed over as far as one that knows it reads. -/
structure Lawful (R : ProtoRuntime) : Prop where
  readTag_write {tag : ℕ} (rest : Bytes) : tag < 2 ^ 32 →
    R.readTag (R.writeTag tag ++ rest) = some (tag, rest)
  readVarint64_writeInt64 (z : Int64) (rest : Bytes) :
    R.readVarint64 (R.writeInt64 z ++ rest) = some (z.toUInt64, rest)
  readVarint64_writeUInt64 (v : UInt64) (rest : Bytes) :
    R.readVarint64 (R.writeUInt64 v ++ rest) = some (v, rest)
  readVarint64_writeEnum (v : Int32) (rest : Bytes) :
    R.readVarint64 (R.writeEnum v ++ rest) = some (v.toInt64.toUInt64, rest)
  readVarint32_writeUInt32 (v : UInt32) (rest : Bytes) :
    R.readVarint32 (R.writeUInt32 v ++ rest) = some (v, rest)
  loadFloat_write (x : BitVec 32) (rest : Bytes) :
    R.loadFloat (R.writeFloat x ++ rest) = some (x, rest)
  readDelimited_write {s : Bytes} (rest : Bytes) : s.length < 2 ^ 31 →
    R.readDelimited (R.writeDelimited s ++ rest) =
      if s.length ≤ maxSize then some (s, rest) else none
  packedFloatParser_write {xs : List (BitVec 32)} (rest : Bytes) : 4 * xs.length < 2 ^ 31 →
    R.packedFloatParser (R.writeFixedPacked xs ++ rest) =
      if 4 * xs.length ≤ maxSize then some (xs, rest) else none
  serializeAsString_eq (s : Bytes) : R.serializeAsString s = if s.length < 2 ^ 31 then s else []
  writeTag_length {tag : ℕ} : tag < 128 → (R.writeTag tag).length = 1
  writeInt64_length (z : Int64) : (R.writeInt64 z).length ≤ 10
  writeUInt64_length (v : UInt64) : (R.writeUInt64 v).length ≤ 10
  writeUInt32_length (v : UInt32) : (R.writeUInt32 v).length ≤ 5
  writeEnum_length (v : Int32) : (R.writeEnum v).length ≤ 10
  writeFloat_length (x : BitVec 32) : (R.writeFloat x).length = 4
  writeDelimited_length (s : Bytes) :
    s.length ≤ (R.writeDelimited s).length ∧ (R.writeDelimited s).length ≤ s.length + 5
  writeFixedPacked_length (xs : List (BitVec 32)) :
    4 * xs.length ≤ (R.writeFixedPacked xs).length ∧
      (R.writeFixedPacked xs).length ≤ 4 * xs.length + 5
  readTag_rest {bs rest : Bytes} {tag : ℕ} :
    R.readTag bs = some (tag, rest) → rest.length < bs.length
  readVarint64_rest {bs rest : Bytes} {v : UInt64} :
    R.readVarint64 bs = some (v, rest) → rest.length ≤ bs.length
  readVarint32_rest {bs rest : Bytes} {v : UInt32} :
    R.readVarint32 bs = some (v, rest) → rest.length ≤ bs.length
  loadFloat_rest {bs rest : Bytes} {x : BitVec 32} :
    R.loadFloat bs = some (x, rest) → rest.length + 4 ≤ bs.length
  readDelimited_rest {bs rest s : Bytes} :
    R.readDelimited bs = some (s, rest) → s.length + rest.length ≤ bs.length
  packedFloatParser_rest {bs rest : Bytes} {xs : List (BitVec 32)} :
    R.packedFloatParser bs = some (xs, rest) → 4 * xs.length + rest.length ≤ bs.length
  unknownField_rest {nesting tag : ℕ} {bs rest : Bytes} :
    R.unknownField nesting tag bs = some rest → rest.length ≤ bs.length
  unknownField_varint64 {nesting number : ℕ} {bs rest : Bytes} {v : UInt64} : 0 < number →
    number < 2 ^ 29 → R.readVarint64 bs = some (v, rest) →
    R.unknownField nesting (8 * number) bs = some rest
  unknownField_varint32 {nesting number : ℕ} {bs rest : Bytes} {v : UInt32} : 0 < number →
    number < 2 ^ 29 → R.readVarint32 bs = some (v, rest) →
    R.unknownField nesting (8 * number) bs = some rest
  unknownField_delimited {nesting number : ℕ} {bs rest s : Bytes} : 0 < number →
    number < 2 ^ 29 → R.readDelimited bs = some (s, rest) →
    R.unknownField nesting (8 * number + 2) bs = some rest
  verifyUtf8_nil : R.verifyUtf8 [] = true

variable (R : ProtoRuntime) {μ α : Type}

/-! ### The writers of generated code -/

/-- A field that is left out in one case. -/
def putUnless (absent : Prop) [Decidable absent] (tag : ℕ) (value : Bytes) : Bytes :=
  if absent then [] else R.writeTag tag ++ value

/-- `!(x <= 0 && x >= 0)`: false of both zeros only. -/
def nonzero (x : BitVec 32) : Bool := decide (x.toNat % 2 ^ 31 ≠ 0)

def putInt64 (number : ℕ) (z : Int64) : Bytes := R.putUnless (z = 0) (8 * number) (R.writeInt64 z)

def putUInt64 (number : ℕ) (v : UInt64) : Bytes :=
  R.putUnless (v = 0) (8 * number) (R.writeUInt64 v)

def putUInt32 (number : ℕ) (v : UInt32) : Bytes :=
  R.putUnless (v = 0) (8 * number) (R.writeUInt32 v)

def putEnum (number : ℕ) (v : Int32) : Bytes := R.putUnless (v = 0) (8 * number) (R.writeEnum v)

def putFloat (number : ℕ) (x : BitVec 32) : Bytes :=
  R.putUnless (nonzero x = false) (8 * number + 5) (R.writeFloat x)

def putString (number : ℕ) (s : Bytes) : Bytes :=
  R.putUnless (s = []) (8 * number + 2) (R.writeDelimited s)

def putPacked (number : ℕ) (xs : List (BitVec 32)) : Bytes :=
  R.putUnless (xs = []) (8 * number + 2) (R.writeFixedPacked xs)

def putMessage (number : ℕ) (message : Option Bytes) : Bytes :=
  message.elim [] fun s => R.writeTag (8 * number + 2) ++ R.writeDelimited s

/-! ### The readers of generated code -/

/-- What a generated parser does after it has read a tag. -/
abbrev FieldParser (μ : Type) := μ → ℕ → Bytes → Option (μ × Bytes)

def valueField (read : Bytes → Option (α × Bytes)) (bs : Bytes) (put : α → μ) :
    Option (μ × Bytes) :=
  (read bs).map fun r => (put r.1, r.2)

def stringField (bs : Bytes) (put : Bytes → μ) : Option (μ × Bytes) :=
  (R.readDelimited bs).bind fun r => if R.verifyUtf8 r.1 then some (put r.1, r.2) else none

/-- `handle_unusual`: the parser stops at a tag of 0 and at the end of a group that it has not
begun, before the end of its input, which its caller takes for an error. -/
def unusual (nesting : ℕ) (m : μ) (tag : ℕ) (bs : Bytes) : Option (μ × Bytes) :=
  if tag % 8 = 4 ∨ tag = 0 then none
  else (R.unknownField nesting tag bs).map fun rest => (m, rest)

def tagged (field : FieldParser μ) : FieldReader Byte μ :=
  fun m bs => (R.readTag bs).bind fun r => field m r.1 r.2

/-- `_InternalParse`: fields until the input is used up; a tag takes at least one byte. A field that
does not read ends it; the message given then, which no caller is to use, is that of the fields
before. -/
def internalParse (field : FieldParser μ) (bs : Bytes) (m : μ) : Bool × μ :=
  merge (R.tagged field) bs.length bs m

/-- The message, if all of its input was read. -/
def parsed (r : Bool × μ) : Option μ := if r.1 then some r.2 else none

/-- `ParseMessage` on a message inside the one that is read. -/
def messageField (field : FieldParser α) (bs : Bytes) (m : α) (put : α → μ) :
    Option (μ × Bytes) :=
  (R.readDelimited bs).bind fun r =>
    (parsed (R.internalParse field r.1 m)).map fun a => (put a, r.2)

/-! ### Fields written and read back -/

section Fields

variable {R} {field : FieldParser μ} {m m' : μ} {tag number : ℕ} {value : Bytes}

theorem tagged_write (hR : R.Lawful) (htag : tag < 2 ^ 32) (value rest : Bytes) :
    R.tagged field m (R.writeTag tag ++ value ++ rest) = field m tag (value ++ rest) := by
  rw [tagged, List.append_assoc, hR.readTag_write _ htag, Option.bind_some]

theorem writeTag_append_ne_nil (hR : R.Lawful) (htag : tag < 2 ^ 32) (value : Bytes) :
    R.writeTag tag ++ value ≠ [] := by
  intro hnil
  have hread := hR.readTag_write value htag
  rw [hnil] at hread
  exact absurd (hR.readTag_rest hread) (Nat.not_lt_zero _)

theorem merges_tagged (hR : R.Lawful) (htag : tag < 2 ^ 32)
    (h : ∀ rest, field m tag (value ++ rest) = some (m', rest)) :
    Merges (R.tagged field) m (R.writeTag tag ++ value) m' := by
  refine Merges.one (writeTag_append_ne_nil hR htag value) fun rest => ?_
  rw [tagged_write hR htag]
  exact h rest

theorem merges_putUnless (hR : R.Lawful) (htag : tag < 2 ^ 32) {absent : Prop} [Decidable absent]
    (habsent : absent → m' = m) (h : ∀ rest, field m tag (value ++ rest) = some (m', rest)) :
    Merges (R.tagged field) m (R.putUnless absent tag value) m' := by
  unfold putUnless
  split
  · case isTrue hc =>
      rw [habsent hc]
      exact .nil m
  · exact merges_tagged hR htag h

theorem valueField_write {read : Bytes → Option (α × Bytes)} {v : α} {rest : Bytes}
    (hread : read (value ++ rest) = some (v, rest)) (put : α → μ) :
    valueField read (value ++ rest) put = some (put v, rest) := by
  rw [valueField, hread, Option.map_some]

theorem merges_putInt64 (hR : R.Lawful) (hn : number < 2 ^ 29) (z : Int64) (put : Int64 → μ)
    (hfield : ∀ bs, field m (8 * number) bs =
      valueField R.readVarint64 bs fun v => put v.toInt64)
    (hzero : put 0 = m) : Merges (R.tagged field) m (R.putInt64 number z) (put z) := by
  refine merges_putUnless hR (by omega) (fun h => h ▸ hzero) fun rest => ?_
  rw [hfield, valueField_write (hR.readVarint64_writeInt64 z rest)]
  rfl

theorem merges_putUInt64 (hR : R.Lawful) (hn : number < 2 ^ 29) (v : UInt64) (put : UInt64 → μ)
    (hfield : ∀ bs, field m (8 * number) bs = valueField R.readVarint64 bs put)
    (hzero : put 0 = m) : Merges (R.tagged field) m (R.putUInt64 number v) (put v) := by
  refine merges_putUnless hR (by omega) (fun h => h ▸ hzero) fun rest => ?_
  rw [hfield, valueField_write (hR.readVarint64_writeUInt64 v rest)]

theorem merges_putUInt32 (hR : R.Lawful) (hn : number < 2 ^ 29) (v : UInt32) (put : UInt32 → μ)
    (hfield : ∀ bs, field m (8 * number) bs = valueField R.readVarint32 bs put)
    (hzero : put 0 = m) : Merges (R.tagged field) m (R.putUInt32 number v) (put v) := by
  refine merges_putUnless hR (by omega) (fun h => h ▸ hzero) fun rest => ?_
  rw [hfield, valueField_write (hR.readVarint32_writeUInt32 v rest)]

theorem toInt32_signExtended (v : Int32) : v.toInt64.toUInt64.toUInt32.toInt32 = v := by
  apply Int32.toBitVec_inj.mp
  show (v.toBitVec.signExtend 64).setWidth 32 = v.toBitVec
  refine BitVec.eq_of_getLsbD_eq fun i hi => ?_
  have hi' : i < 64 := by omega
  rw [BitVec.getLsbD_setWidth, BitVec.getLsbD_signExtend, if_pos hi]
  simp only [hi, hi', decide_true, Bool.true_and]

theorem merges_putEnum (hR : R.Lawful) (hn : number < 2 ^ 29) (v : Int32) (put : Int32 → μ)
    (hfield : ∀ bs, field m (8 * number) bs =
      valueField R.readVarint64 bs fun n => put n.toUInt32.toInt32)
    (hzero : put 0 = m) : Merges (R.tagged field) m (R.putEnum number v) (put v) := by
  refine merges_putUnless hR (by omega) (fun h => h ▸ hzero) fun rest => ?_
  rw [hfield, valueField_write (hR.readVarint64_writeEnum v rest), toInt32_signExtended]

/-- What a `float` field is after a round trip: a negative zero is not sent. -/
def plusZero (x : BitVec 32) : BitVec 32 := if nonzero x then x else 0

/-- `-0.0f`. -/
def negZero : BitVec 32 := BitVec.ofNat 32 (2 ^ 31)

theorem plusZero_eq_iff (x : BitVec 32) : plusZero x = x ↔ x ≠ negZero := by
  unfold plusZero nonzero
  constructor
  · rintro h rfl
    exact absurd h (by decide)
  · intro hx
    split
    · rfl
    · case isFalse hzero =>
        simp only [decide_eq_true_eq, not_not] at hzero
        have hlt := x.isLt
        have hne : x.toNat ≠ 2 ^ 31 := fun h => hx (BitVec.eq_of_toNat_eq (by rw [h]; rfl))
        exact BitVec.eq_of_toNat_eq (by show 0 = x.toNat; omega)

theorem merges_putFloat (hR : R.Lawful) (hn : number < 2 ^ 29) (x : BitVec 32)
    (put : BitVec 32 → μ)
    (hfield : ∀ bs, field m (8 * number + 5) bs = valueField R.loadFloat bs put)
    (hzero : put 0 = m) : Merges (R.tagged field) m (R.putFloat number x) (put (plusZero x)) := by
  unfold putFloat putUnless plusZero
  cases nonzero x with
  | false =>
    rw [if_pos rfl, if_neg Bool.false_ne_true, hzero]
    exact .nil m
  | true =>
    rw [if_neg (by decide), if_pos rfl]
    refine merges_tagged hR (by omega) fun rest => ?_
    rw [hfield, valueField_write (hR.loadFloat_write x rest)]

/-- A string that a parser takes. -/
def Text (R : ProtoRuntime) (s : Bytes) : Prop := s.length ≤ maxSize ∧ R.verifyUtf8 s = true

instance (R : ProtoRuntime) (s : Bytes) : Decidable (R.Text s) := inferInstanceAs (Decidable (_ ∧ _))

theorem stringField_write (hR : R.Lawful) {s : Bytes} (hlen : s.length < 2 ^ 31) (rest : Bytes)
    (put : Bytes → μ) : R.stringField (R.writeDelimited s ++ rest) put =
      if R.Text s then some (put s, rest) else none := by
  rw [stringField, hR.readDelimited_write rest hlen]
  by_cases hsize : s.length ≤ maxSize
  · simp only [hsize, if_true, Option.bind_some, Text, true_and]
  · simp only [hsize, if_false, Option.bind_none, Text, false_and]

theorem merges_putString (hR : R.Lawful) (hn : number < 2 ^ 29) {s : Bytes}
    (hlen : s.length < 2 ^ 31) (htext : R.Text s) (put : Bytes → μ)
    (hfield : ∀ bs, field m (8 * number + 2) bs = R.stringField bs put)
    (hempty : put [] = m) : Merges (R.tagged field) m (R.putString number s) (put s) := by
  refine merges_putUnless hR (by omega) (fun h => h ▸ hempty) fun rest => ?_
  rw [hfield, stringField_write hR hlen, if_pos htext]

theorem putString_stuck (hR : R.Lawful) (hn : number < 2 ^ 29) {s : Bytes}
    (hlen : s.length < 2 ^ 31) (htext : ¬ R.Text s) (put : Bytes → μ)
    (hfield : ∀ bs, field m (8 * number + 2) bs = R.stringField bs put) (rest : Bytes) :
    Stuck (R.tagged field) m (R.putString number s ++ rest) := by
  have hne : s ≠ [] := by
    rintro rfl
    exact htext ⟨Nat.zero_le _, hR.verifyUtf8_nil⟩
  unfold putString putUnless
  rw [if_neg hne]
  refine ⟨?_, ?_⟩
  · exact List.append_ne_nil_of_left_ne_nil (writeTag_append_ne_nil hR (by omega) _) rest
  · rw [tagged_write hR (by omega), hfield, stringField_write hR hlen, if_neg htext]

theorem merges_putPacked (hR : R.Lawful) (hn : number < 2 ^ 29) {xs : List (BitVec 32)}
    (hlen : 4 * xs.length ≤ maxSize) (put : List (BitVec 32) → μ)
    (hfield : ∀ bs, field m (8 * number + 2) bs = valueField R.packedFloatParser bs put)
    (hempty : put [] = m) : Merges (R.tagged field) m (R.putPacked number xs) (put xs) := by
  refine merges_putUnless hR (by omega) (fun h => h ▸ hempty) fun rest => ?_
  have hread := hR.packedFloatParser_write rest (Nat.lt_of_le_of_lt hlen (by decide))
  rw [if_pos hlen] at hread
  rw [hfield, valueField_write hread]

theorem putPacked_stuck (hR : R.Lawful) (hn : number < 2 ^ 29) {xs : List (BitVec 32)}
    (hlen : 4 * xs.length < 2 ^ 31) (hlong : ¬ 4 * xs.length ≤ maxSize)
    (put : List (BitVec 32) → μ)
    (hfield : ∀ bs, field m (8 * number + 2) bs = valueField R.packedFloatParser bs put)
    (rest : Bytes) : Stuck (R.tagged field) m (R.putPacked number xs ++ rest) := by
  have hne : xs ≠ [] := by
    rintro rfl
    exact hlong (Nat.zero_le _)
  unfold putPacked putUnless
  rw [if_neg hne]
  refine ⟨?_, ?_⟩
  · exact List.append_ne_nil_of_left_ne_nil (writeTag_append_ne_nil hR (by omega) _) rest
  · rw [tagged_write hR (by omega), hfield, valueField, hR.packedFloatParser_write rest hlen,
      if_neg hlong, Option.map_none]

theorem messageField_write (hR : R.Lawful) {inner : FieldParser α} {s : Bytes}
    (hlen : s.length ≤ maxSize) (rest : Bytes) (a : α) (put : α → μ) :
    R.messageField inner (R.writeDelimited s ++ rest) a put =
      (parsed (R.internalParse inner s a)).map fun a => (put a, rest) := by
  have hread := hR.readDelimited_write rest (Nat.lt_of_le_of_lt hlen (by decide))
  rw [if_pos hlen] at hread
  rw [messageField, hread, Option.bind_some]

theorem internalParse_merges {s : Bytes} (h : Merges (R.tagged field) m s m') :
    R.internalParse field s m = (true, m') :=
  h.merge_eq (Nat.le_refl _)

theorem internalParse_stuck {s t : Bytes} (h : Merges (R.tagged field) m s m')
    (ht : Stuck (R.tagged field) m' t) : R.internalParse field (s ++ t) m = (false, m') :=
  h.merge_stuck ht (by simp)

/-! ### The bytes of a field -/

theorem putUnless_length (hR : R.Lawful) {absent : Prop} [Decidable absent] (htag : tag < 128) :
    (R.putUnless absent tag value).length ≤ value.length + 1 := by
  unfold putUnless
  split
  · exact Nat.zero_le _
  · rw [List.length_append, hR.writeTag_length htag]
    omega

theorem putString_length (hR : R.Lawful) (number : ℕ) (hn : number < 16) (s : Bytes) :
    (R.putString number s).length ≤ s.length + 6 := by
  have h : (R.putString number s).length ≤ _ := putUnless_length hR (by omega)
  have hs := hR.writeDelimited_length s
  omega

theorem putPacked_length (hR : R.Lawful) (number : ℕ) (hn : number < 16) (xs : List (BitVec 32)) :
    (R.putPacked number xs).length ≤ 4 * xs.length + 6 := by
  have h : (R.putPacked number xs).length ≤ _ := putUnless_length hR (by omega)
  have hxs := hR.writeFixedPacked_length xs
  omega

theorem putInt64_length (hR : R.Lawful) (number : ℕ) (hn : number < 16) (z : Int64) :
    (R.putInt64 number z).length ≤ 11 :=
  (putUnless_length hR (by omega)).trans (Nat.succ_le_succ (hR.writeInt64_length z))

theorem putUInt64_length (hR : R.Lawful) (number : ℕ) (hn : number < 16) (v : UInt64) :
    (R.putUInt64 number v).length ≤ 11 :=
  (putUnless_length hR (by omega)).trans (Nat.succ_le_succ (hR.writeUInt64_length v))

theorem putUInt32_length (hR : R.Lawful) (number : ℕ) (hn : number < 16) (v : UInt32) :
    (R.putUInt32 number v).length ≤ 6 :=
  (putUnless_length hR (by omega)).trans (Nat.succ_le_succ (hR.writeUInt32_length v))

theorem putEnum_length (hR : R.Lawful) (number : ℕ) (hn : number < 16) (v : Int32) :
    (R.putEnum number v).length ≤ 11 :=
  (putUnless_length hR (by omega)).trans (Nat.succ_le_succ (hR.writeEnum_length v))

theorem putFloat_length (hR : R.Lawful) (number : ℕ) (hn : number < 16) (x : BitVec 32) :
    (R.putFloat number x).length ≤ 5 :=
  (putUnless_length hR (by omega)).trans (Nat.succ_le_succ (hR.writeFloat_length x).le)

theorem le_putString_length (hR : R.Lawful) (number : ℕ) (s : Bytes) :
    s.length ≤ (R.putString number s).length := by
  unfold putString putUnless
  split
  · case isTrue h =>
      subst h
      exact Nat.le_refl 0
  · have hs := hR.writeDelimited_length s
    rw [List.length_append]
    omega

theorem le_putPacked_length (hR : R.Lawful) (number : ℕ) (xs : List (BitVec 32)) :
    4 * xs.length ≤ (R.putPacked number xs).length := by
  unfold putPacked putUnless
  split
  · case isTrue h =>
      subst h
      exact Nat.le_refl 0
  · have hxs := hR.writeFixedPacked_length xs
    rw [List.length_append]
    omega

end Fields

end ProtoRuntime
end AuvMiddleware
