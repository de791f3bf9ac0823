import AuvMiddleware.Lib.ProtoRuntime

/-!
# A protobuf runtime

The proto3 encoding written out: base-128 varints, little-endian floats, lengths up to
`INT_MAX - 16`, groups that nest as far as the default limit on recursion. It keeps the laws, so
that what is proved of every lawful runtime can be evaluated.
-/

namespace AuvMiddleware.ProtoRuntime

/-! ### Varints and fixed words -/

def putVarint : ℕ → ℕ → Bytes
  | 0, _ => []
  | fuel + 1, v =>
    if v < 128 then [lowByte v]
    else lowByte (v % 128 + 128) :: putVarint fuel (v / 128)

/-- At most `fuel` bytes; the value is what the groups of seven bits add up to. -/
def takeVarint : ℕ → Bytes → Option (ℕ × Bytes)
  | 0, _ => none
  | _ + 1, [] => none
  | fuel + 1, b :: bs =>
    if b.val < 128 then some (b.val, bs)
    else (takeVarint fuel bs).map fun r => (b.val - 128 + 128 * r.1, r.2)

def takeTag (bs : Bytes) : Option (ℕ × Bytes) :=
  (takeVarint 5 bs).map fun r => (r.1 % 2 ^ 32, r.2)

def floatBytes (x : BitVec 32) : Bytes := le32 x.toNat

def takeFloat : Bytes → Option (BitVec 32 × Bytes)
  | b0 :: b1 :: b2 :: b3 :: bs => some (BitVec.ofNat 32 (ofLe32 b0 b1 b2 b3), bs)
  | _ => none

def takeFloats : ℕ → Bytes → Option (List (BitVec 32))
  | _, [] => some []
  | 0, _ => none
  | fuel + 1, bs => (takeFloat bs).bind fun r => (takeFloats fuel r.2).map (r.1 :: ·)

/-- A length of five bytes at most, and as many bytes as it tells. -/
def takeDelimited (bs : Bytes) : Option (Bytes × Bytes) :=
  (takeVarint 5 bs).bind fun r =>
    if r.1 ≤ maxSize ∧ r.1 ≤ r.2.length then some (r.2.take r.1, r.2.drop r.1) else none

def takeBytes (n : ℕ) (bs : Bytes) : Option Bytes := if n ≤ bs.length then some (bs.drop n) else none

/-! ### UTF-8 -/

def continuation (b : Byte) : Bool := decide (128 ≤ b.val ∧ b.val < 192)

def validUtf8 : ℕ → Bytes → Bool
  | _, [] => true
  | 0, _ => false
  | fuel + 1, b :: bs =>
    if b.val < 128 then validUtf8 fuel bs
    else match bs with
      | c :: bs =>
        if 194 ≤ b.val ∧ b.val < 224 then continuation c && validUtf8 fuel bs
        else match bs with
          | d :: bs =>
            if 224 ≤ b.val ∧ b.val < 240 then
              continuation c && continuation d &&
                decide (b.val = 224 → 160 ≤ c.val) && decide (b.val = 237 → c.val < 160) &&
                validUtf8 fuel bs
            else match bs with
              | e :: bs =>
                decide (240 ≤ b.val ∧ b.val < 245) && continuation c && continuation d &&
                  continuation e && decide (b.val = 240 → 144 ≤ c.val) &&
                  decide (b.val = 244 → c.val < 144) && validUtf8 fuel bs
              | [] => false
          | [] => false
      | [] => false

/-! ### Unknown fields -/

/-- Messages and groups inside one another (`GetDefaultRecursionLimit`). -/
def recursionLimit : ℕ := 100

/-- A field that is not a group. -/
def skipValue (tag : ℕ) (bs : Bytes) : Option Bytes :=
  match tag % 8 with
  | 0 => (takeVarint 10 bs).map Prod.snd
  | 1 => takeBytes 8 bs
  | 2 => (takeDelimited bs).map Prod.snd
  | 5 => takeBytes 4 bs
  | _ => none

/-- Inside the groups that the tags of `opened` began, the innermost first: fields up to the tag
that ends the last of them, which is one more than the tag that began it. -/
def skipGroups : ℕ → ℕ → List ℕ → Bytes → Option Bytes
  | _, _, [], bs => some bs
  | 0, _, _ :: _, _ => none
  | fuel + 1, nesting, start :: opened, bs =>
    (takeTag bs).bind fun r =>
      if r.1 % 8 = 4 ∨ r.1 = 0 then
        if r.1 = start + 1 then skipGroups fuel nesting opened r.2 else none
      else if r.1 / 8 = 0 then none
      else if r.1 % 8 = 3 then
        if nesting + (start :: opened).length < recursionLimit then
          skipGroups fuel nesting (r.1 :: start :: opened) r.2
        else none
      else (skipValue r.1 r.2).bind (skipGroups fuel nesting (start :: opened))

def skipField (nesting tag : ℕ) (bs : Bytes) : Option Bytes :=
  if tag / 8 = 0 then none
  else if tag % 8 = 3 then
    if nesting < recursionLimit then skipGroups bs.length nesting [tag] bs else none
  else skipValue tag bs

def reference : ProtoRuntime where
  writeTag := putVarint 5
  writeInt64 z := putVarint 10 z.toUInt64.toNat
  writeUInt64 v := putVarint 10 v.toNat
  writeUInt32 v := putVarint 5 v.toNat
  writeEnum v := putVarint 10 v.toInt64.toUInt64.toNat
  writeFloat := floatBytes
  writeDelimited s := putVarint 5 s.length ++ s
  writeFixedPacked xs := putVarint 5 (4 * xs.length) ++ xs.flatMap floatBytes
  serializeAsString s := if s.length < 2 ^ 31 then s else []
  readTag := takeTag
  readVarint64 bs := (takeVarint 10 bs).map fun r => (UInt64.ofNat r.1, r.2)
  readVarint32 bs := (takeVarint 10 bs).map fun r => (UInt32.ofNat r.1, r.2)
  loadFloat := takeFloat
  readDelimited := takeDelimited
  packedFloatParser bs :=
    (takeDelimited bs).bind fun r => (takeFloats r.1.length r.1).map fun xs => (xs, r.2)
  verifyUtf8 s := validUtf8 s.length s
  unknownField := skipField

example : reference.unknownField 0 75 (bytes [8, 5, 83, 84, 76, 1]) = some (bytes [1]) := by decide

/-! ### It keeps the laws -/

theorem takeVarint_putVarint (fuel fuel' v : ℕ) (h : v < 2 ^ (7 * fuel)) (h' : v < 2 ^ (7 * fuel'))
    (rest : Bytes) (hpos : 0 < fuel) (hpos' : 0 < fuel') :
    takeVarint fuel' (putVarint fuel v ++ rest) = some (v, rest) := by
  induction fuel generalizing fuel' v with
  | zero => omega
  | succ fuel ih =>
    cases fuel' with
    | zero => omega
    | succ fuel' =>
      unfold putVarint
      split
      · case isTrue hlast =>
          have hval : (lowByte v).val = v := by
            rw [lowByte_val]
            omega
          simp only [List.cons_append, List.nil_append, takeVarint, hval, hlast, if_true]
      · case isFalse hmore =>
          have hval : (lowByte (v % 128 + 128)).val = v % 128 + 128 := by
            rw [lowByte_val]
            omega
          have hdown (k : ℕ) (hk : v < 2 ^ (7 * (k + 1))) : v / 128 < 2 ^ (7 * k) := by
            rw [Nat.mul_succ, Nat.pow_add] at hk
            exact Nat.div_lt_of_lt_mul (by omega)
          have hcont (k : ℕ) (hk : v / 128 < 2 ^ (7 * k)) : 0 < k := by
            rcases Nat.eq_zero_or_pos k with rfl | hk'
            · simp only [Nat.mul_zero, Nat.pow_zero] at hk
              omega
            · exact hk'
          have hrest := ih fuel' (v / 128) (hdown fuel h) (hdown fuel' h')
            (hcont fuel (hdown fuel h)) (hcont fuel' (hdown fuel' h'))
          have hbig : ¬ v % 128 + 128 < 128 := by omega
          simp only [List.cons_append, takeVarint, hval, hbig, if_false, hrest, Option.map_some]
          have hsum : v % 128 + 128 - 128 + 128 * (v / 128) = v := by omega
          rw [hsum]

theorem takeVarint_rest {fuel v : ℕ} {bs rest : Bytes} (h : takeVarint fuel bs = some (v, rest)) :
    rest.length < bs.length := by
  induction fuel generalizing v bs rest with
  | zero => cases h
  | succ fuel ih =>
    cases bs with
    | nil => cases h
    | cons b bs =>
      unfold takeVarint at h
      split at h
      · cases h
        exact Nat.lt_succ_self _
      · obtain ⟨r, hr, heq⟩ := Option.map_eq_some_iff.mp h
        cases heq
        have hshort := ih hr
        rw [List.length_cons]
        omega

theorem takeVarint_map_rest {f : ℕ → α} {v : α} {fuel : ℕ} {bs rest : Bytes}
    (h : ((takeVarint fuel bs).map fun r => (f r.1, r.2)) = some (v, rest)) :
    (takeVarint fuel bs).map Prod.snd = some rest ∧ rest.length < bs.length := by
  obtain ⟨r, hr, heq⟩ := Option.map_eq_some_iff.mp h
  cases heq
  rw [hr]
  exact ⟨rfl, takeVarint_rest hr⟩

theorem readVarint64_put (v : UInt64) (rest : Bytes) :
    reference.readVarint64 (putVarint 10 v.toNat ++ rest) = some (v, rest) := by
  have hv := v.toNat_lt
  show (takeVarint 10 (putVarint 10 v.toNat ++ rest)).map _ = _
  rw [takeVarint_putVarint 10 10 _ (by omega) (by omega) _ (by omega) (by omega), Option.map_some,
    UInt64.ofNat_toNat]

theorem putVarint_length (fuel v : ℕ) : (putVarint fuel v).length ≤ fuel := by
  induction fuel generalizing v with
  | zero => exact Nat.le_refl 0
  | succ fuel ih =>
    unfold putVarint
    split
    · exact Nat.succ_le_succ (Nat.zero_le fuel)
    · exact Nat.succ_le_succ (ih (v / 128))

theorem takeFloat_floatBytes (x : BitVec 32) (rest : Bytes) :
    takeFloat (floatBytes x ++ rest) = some (x, rest) := by
  have hx := ofLe32_le32 x.isLt
  show some (BitVec.ofNat 32 _, rest) = _
  rw [hx, BitVec.ofNat_toNat, BitVec.setWidth_eq]

theorem takeFloats_floatBytes (xs : List (BitVec 32)) (fuel : ℕ) (h : xs.length ≤ fuel) :
    takeFloats fuel (xs.flatMap floatBytes) = some xs := by
  induction xs generalizing fuel with
  | nil => cases fuel <;> rfl
  | cons x xs ih =>
    rw [List.length_cons] at h
    cases fuel with
    | zero => omega
    | succ fuel =>
      have hx := takeFloat_floatBytes x (xs.flatMap floatBytes)
      rw [List.flatMap_cons]
      show (takeFloat _).bind _ = _
      rw [hx, Option.bind_some, ih fuel (by omega), Option.map_some]

theorem floatBytes_flatMap_length (xs : List (BitVec 32)) :
    (xs.flatMap floatBytes).length = 4 * xs.length := by
  induction xs with
  | nil => rfl
  | cons x xs ih =>
    rw [List.flatMap_cons, List.length_append, ih, List.length_cons, floatBytes, le32_length]
    omega

theorem takeFloat_rest {x : BitVec 32} {bs rest : Bytes} (h : takeFloat bs = some (x, rest)) :
    rest.length + 4 = bs.length := by
  unfold takeFloat at h
  split at h
  · cases h
    rfl
  · cases h

theorem takeFloats_length {fuel : ℕ} {bs : Bytes} {xs : List (BitVec 32)}
    (h : takeFloats fuel bs = some xs) : 4 * xs.length = bs.length := by
  induction fuel generalizing bs xs with
  | zero =>
    cases bs with
    | nil =>
      cases h
      rfl
    | cons b bs => cases h
  | succ fuel ih =>
    cases bs with
    | nil =>
      cases h
      rfl
    | cons b bs =>
      obtain ⟨r, hr, h⟩ := Option.bind_eq_some_iff.mp h
      obtain ⟨xs', hxs', heq⟩ := Option.map_eq_some_iff.mp h
      cases heq
      have hfloat := takeFloat_rest hr
      have hfloats := ih hxs'
      rw [List.length_cons]
      omega

theorem takeDelimited_write {s : Bytes} (h : s.length < 2 ^ 31) (rest : Bytes) :
    takeDelimited (putVarint 5 s.length ++ s ++ rest) =
      if s.length ≤ maxSize then some (s, rest) else none := by
  have hle : s.length ≤ (s ++ rest).length := by simp
  rw [takeDelimited, List.append_assoc, takeVarint_putVarint 5 5 _ (by omega) (by omega) _
    (by omega) (by omega), Option.bind_some]
  simp only [hle, and_true, List.take_left, List.drop_left]

theorem takeDelimited_rest {s bs rest : Bytes} (h : takeDelimited bs = some (s, rest)) :
    s.length + rest.length < bs.length := by
  obtain ⟨r, hr, h⟩ := Option.bind_eq_some_iff.mp h
  have hrest := takeVarint_rest hr
  split at h
  · cases h
    rw [List.length_take, List.length_drop]
    omega
  · cases h

theorem takeBytes_rest {n : ℕ} {bs rest : Bytes} (h : takeBytes n bs = some rest) :
    rest.length ≤ bs.length := by
  unfold takeBytes at h
  split at h
  · cases h
    rw [List.length_drop]
    omega
  · cases h

theorem skipValue_rest {tag : ℕ} {bs rest : Bytes} (h : skipValue tag bs = some rest) :
    rest.length ≤ bs.length := by
  unfold skipValue at h
  split at h
  · obtain ⟨r, hr, heq⟩ := Option.map_eq_some_iff.mp h
    cases heq
    exact (takeVarint_rest hr).le
  · exact takeBytes_rest h
  · obtain ⟨r, hr, heq⟩ := Option.map_eq_some_iff.mp h
    cases heq
    have hsplit := takeDelimited_rest hr
    omega
  · exact takeBytes_rest h
  · cases h

theorem skipGroups_nil (fuel nesting : ℕ) (bs : Bytes) :
    skipGroups fuel nesting [] bs = some bs := by
  cases fuel <;> rfl

theorem takeTag_rest {tag : ℕ} {bs rest : Bytes} (h : takeTag bs = some (tag, rest)) :
    rest.length < bs.length :=
  (takeVarint_map_rest (f := (· % 2 ^ 32)) h).2

theorem skipGroups_rest {fuel nesting : ℕ} {opened : List ℕ} {bs rest : Bytes}
    (h : skipGroups fuel nesting opened bs = some rest) : rest.length ≤ bs.length := by
  induction fuel generalizing opened bs with
  | zero =>
    cases opened with
    | nil =>
      cases h
      exact Nat.le_refl _
    | cons start opened => cases h
  | succ fuel ih =>
    cases opened with
    | nil =>
      rw [skipGroups_nil] at h
      cases h
      exact Nat.le_refl _
    | cons start opened =>
      obtain ⟨⟨tag, after⟩, hr, h⟩ := Option.bind_eq_some_iff.mp h
      refine le_trans ?_ (takeTag_rest hr).le
      dsimp only at h
      split at h
      · split at h
        · exact ih h
        · cases h
      · split at h
        · cases h
        · split at h
          · split at h
            · exact ih h
            · cases h
          · obtain ⟨next, hvalue, h⟩ := Option.bind_eq_some_iff.mp h
            exact (ih h).trans (skipValue_rest hvalue)

theorem skipField_rest {nesting tag : ℕ} {bs rest : Bytes}
    (h : skipField nesting tag bs = some rest) : rest.length ≤ bs.length := by
  unfold skipField at h
  split at h
  · cases h
  · split at h
    · split at h
      · exact skipGroups_rest h
      · cases h
    · exact skipValue_rest h

/-- A field with a number is passed over as a value, if it is one. -/
theorem skipField_value {number w : ℕ} (hn : 0 < number) (hw : w < 3) (nesting : ℕ) (bs : Bytes) :
    skipField nesting (8 * number + w) bs = skipValue w bs := by
  have hnumber : (8 * number + w) / 8 ≠ 0 := by omega
  have htype : (8 * number + w) % 8 = w := by omega
  have hself : w % 8 = w := by omega
  unfold skipField skipValue
  rw [if_neg hnumber, htype, if_neg (by omega), hself]

theorem readPackedFloat_rest {bs rest : Bytes} {xs : List (BitVec 32)}
    (h : reference.packedFloatParser bs = some (xs, rest)) :
    4 * xs.length + rest.length ≤ bs.length := by
  obtain ⟨r, hr, h⟩ := Option.bind_eq_some_iff.mp h
  obtain ⟨ys, hys, heq⟩ := Option.map_eq_some_iff.mp h
  cases heq
  have hsplit := takeDelimited_rest hr
  have hfloats := takeFloats_length hys
  omega

theorem readPackedFloat_write {xs : List (BitVec 32)} (rest : Bytes)
    (hlen : 4 * xs.length < 2 ^ 31) :
    reference.packedFloatParser (reference.writeFixedPacked xs ++ rest) =
      if 4 * xs.length ≤ maxSize then some (xs, rest) else none := by
  have hbytes := floatBytes_flatMap_length xs
  have hread := takeDelimited_write (s := xs.flatMap floatBytes) (by omega) rest
  rw [hbytes] at hread
  show (takeDelimited (putVarint 5 (4 * xs.length) ++ xs.flatMap floatBytes ++ rest)).bind _ = _
  rw [hread]
  split
  · rw [Option.bind_some, hbytes, takeFloats_floatBytes xs _ (by omega), Option.map_some]
  · rfl

theorem reference_lawful : reference.Lawful where
  readTag_write {tag} rest htag := by
    show (takeVarint 5 (putVarint 5 tag ++ rest)).map _ = _
    rw [takeVarint_putVarint 5 5 _ (by omega) (by omega) _ (by omega) (by omega), Option.map_some,
      Nat.mod_eq_of_lt htag]
  readVarint64_writeInt64 z rest := readVarint64_put z.toUInt64 rest
  readVarint64_writeUInt64 v rest := readVarint64_put v rest
  readVarint64_writeEnum v rest := readVarint64_put v.toInt64.toUInt64 rest
  readVarint32_writeUInt32 v rest := by
    have hv := v.toNat_lt
    show (takeVarint 10 (putVarint 5 v.toNat ++ rest)).map _ = _
    rw [takeVarint_putVarint 5 10 _ (by omega) (by omega) _ (by omega) (by omega),
      Option.map_some, UInt32.ofNat_toNat]
  loadFloat_write := takeFloat_floatBytes
  readDelimited_write rest h := takeDelimited_write h rest
  packedFloatParser_write rest h := readPackedFloat_write rest h
  serializeAsString_eq _ := rfl
  writeTag_length {tag} htag := by
    show (putVarint 5 tag).length = 1
    rw [putVarint, if_pos htag]
    rfl
  writeInt64_length _ := putVarint_length 10 _
  writeUInt64_length _ := putVarint_length 10 _
  writeUInt32_length _ := putVarint_length 5 _
  writeEnum_length _ := putVarint_length 10 _
  writeFloat_length x := le32_length x.toNat
  writeDelimited_length s := by
    have hv := putVarint_length 5 s.length
    show s.length ≤ (putVarint 5 s.length ++ s).length ∧
      (putVarint 5 s.length ++ s).length ≤ s.length + 5
    rw [List.length_append]
    omega
  writeFixedPacked_length xs := by
    have hv := putVarint_length 5 (4 * xs.length)
    have hbytes := floatBytes_flatMap_length xs
    show 4 * xs.length ≤ (putVarint 5 (4 * xs.length) ++ xs.flatMap floatBytes).length ∧
      (putVarint 5 (4 * xs.length) ++ xs.flatMap floatBytes).length ≤ 4 * xs.length + 5
    rw [List.length_append]
    omega
  readTag_rest := takeTag_rest
  readVarint64_rest h := (takeVarint_map_rest h).2.le
  readVarint32_rest h := (takeVarint_map_rest h).2.le
  loadFloat_rest h := (takeFloat_rest h).le
  readDelimited_rest h := (takeDelimited_rest h).le
  packedFloatParser_rest := readPackedFloat_rest
  unknownField_rest := skipField_rest
  unknownField_varint64 hn _ h :=
    (skipField_value hn (w := 0) (by omega) _ _).trans (takeVarint_map_rest h).1
  unknownField_varint32 hn _ h :=
    (skipField_value hn (w := 0) (by omega) _ _).trans (takeVarint_map_rest h).1
  unknownField_delimited hn _ h := by
    refine (skipField_value hn (by omega) _ _).trans ?_
    show (takeDelimited _).map _ = _
    rw [show takeDelimited _ = _ from h, Option.map_some]
  verifyUtf8_nil := rfl

end AuvMiddleware.ProtoRuntime
