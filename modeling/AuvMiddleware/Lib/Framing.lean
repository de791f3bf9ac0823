import AuvMiddleware.Lib.Bytes

/-!
# Length-prefixed frames

A frame is the length of a payload, four bytes little-endian, and the payload. A byte string that
begins with a number of frames does so in one way only, so it can be cut nowhere inside them.
-/

namespace AuvMiddleware.Framing

def framed (payload : Bytes) : Bytes := le32 payload.length ++ payload

def joined (payloads : List Bytes) : Bytes := payloads.flatMap framed

/-- The payload of the frame at the front, and what follows it. -/
def takeFrame : Bytes → Option (Bytes × Bytes)
  | b0 :: b1 :: b2 :: b3 :: rest =>
    if ofLe32 b0 b1 b2 b3 ≤ rest.length then
      some (rest.take (ofLe32 b0 b1 b2 b3), rest.drop (ofLe32 b0 b1 b2 b3))
    else none
  | _ => none

def takeFrames : ℕ → Bytes → Option (List Bytes × Bytes)
  | 0, s => some ([], s)
  | n + 1, s =>
    (takeFrame s).bind fun r => (takeFrames n r.2).map fun rs => (r.1 :: rs.1, rs.2)

theorem joined_cons (payload : Bytes) (payloads : List Bytes) :
    joined (payload :: payloads) = framed payload ++ joined payloads := List.flatMap_cons ..

theorem takeFrame_framed {payload : Bytes} (h : payload.length < 2 ^ 32) (rest : Bytes) :
    takeFrame (framed payload ++ rest) = some (payload, rest) := by
  have hlen := ofLe32_le32 h
  unfold framed
  rw [List.append_assoc]
  show (if _ then _ else _) = _
  simp [hlen]

theorem takeFrame_eq_some {s payload rest : Bytes} :
    takeFrame s = some (payload, rest) ↔ payload.length < 2 ^ 32 ∧ s = framed payload ++ rest := by
  constructor
  · intro h
    unfold takeFrame at h
    split at h
    · rename_i b0 b1 b2 b3 tail
      split at h
      · rename_i hle
        cases h
        have hlen : (tail.take (ofLe32 b0 b1 b2 b3)).length = ofLe32 b0 b1 b2 b3 := by
          rw [List.length_take]
          omega
        refine ⟨?_, ?_⟩
        · rw [hlen]
          exact ofLe32_lt b0 b1 b2 b3
        · rw [framed, hlen, le32_ofLe32, List.append_assoc, List.take_append_drop]
          rfl
      · cases h
    · cases h
  · rintro ⟨hlen, rfl⟩
    exact takeFrame_framed hlen rest

theorem takeFrame_eq_none {s : Bytes} (h : takeFrame s = none) :
    s.length < 4 ∨ ∃ b0 b1 b2 b3 rest, s = b0 :: b1 :: b2 :: b3 :: rest ∧
      rest.length < ofLe32 b0 b1 b2 b3 := by
  unfold takeFrame at h
  split at h
  · rename_i b0 b1 b2 b3 rest
    split at h
    · cases h
    · rename_i hlong
      exact Or.inr ⟨b0, b1, b2, b3, rest, rfl, not_le.mp hlong⟩
  · rename_i hshort
    left
    by_contra hlen
    obtain ⟨b0, b1, b2, b3, rest, rfl⟩ := four_bytes (not_lt.mp hlen)
    exact hshort b0 b1 b2 b3 rest rfl

theorem takeFrames_succ_eq_some {n : ℕ} {s rest : Bytes} {payloads : List Bytes} :
    takeFrames (n + 1) s = some (payloads, rest) ↔ ∃ payload tail others,
      takeFrame s = some (payload, tail) ∧ takeFrames n tail = some (others, rest) ∧
      payloads = payload :: others := by
  rw [takeFrames]
  constructor
  · intro h
    obtain ⟨⟨payload, tail⟩, hframe, h⟩ := Option.bind_eq_some_iff.mp h
    obtain ⟨⟨others, last⟩, hothers, heq⟩ := Option.map_eq_some_iff.mp h
    cases heq
    exact ⟨payload, tail, others, hframe, hothers, rfl⟩
  · rintro ⟨payload, tail, others, hframe, hothers, rfl⟩
    rw [hframe, Option.bind_some, hothers, Option.map_some]

/-- The front of a byte string is a number of frames in at most one way. -/
theorem takeFrames_eq_some {n : ℕ} {s rest : Bytes} {payloads : List Bytes} :
    takeFrames n s = some (payloads, rest) ↔
      payloads.length = n ∧ (∀ p ∈ payloads, p.length < 2 ^ 32) ∧ s = joined payloads ++ rest := by
  induction n generalizing s payloads with
  | zero =>
    constructor
    · intro h
      cases h
      exact ⟨rfl, by simp, rfl⟩
    · rintro ⟨hn, -, rfl⟩
      rw [List.length_eq_zero_iff.mp hn]
      rfl
  | succ n ih =>
    rw [takeFrames_succ_eq_some]
    constructor
    · rintro ⟨payload, tail, others, hframe, hothers, rfl⟩
      obtain ⟨hlen, rfl⟩ := takeFrame_eq_some.mp hframe
      obtain ⟨hn, hsmall, htail⟩ := ih.mp hothers
      refine ⟨?_, List.forall_mem_cons.mpr ⟨hlen, hsmall⟩, ?_⟩
      · rw [List.length_cons, hn]
      · rw [joined_cons, List.append_assoc, ← htail]
    · rintro ⟨hn, hsmall, rfl⟩
      cases payloads with
      | nil => cases hn
      | cons payload others =>
        obtain ⟨hlen, hothers⟩ := List.forall_mem_cons.mp hsmall
        refine ⟨payload, _, others, ?_, ih.mpr ⟨Nat.succ.inj hn, hothers, rfl⟩, rfl⟩
        rw [joined_cons, List.append_assoc]
        exact takeFrame_framed hlen _

/-- Frames that are cut off anywhere before their end are missing at least one. -/
theorem takeFrames_cut {payloads : List Bytes} (hsmall : ∀ p ∈ payloads, p.length < 2 ^ 32)
    {kept cut : Bytes} (hcut : cut ≠ []) (h : kept ++ cut = joined payloads) :
    takeFrames payloads.length kept = none := by
  cases hframes : takeFrames payloads.length kept with
  | none => rfl
  | some r =>
    obtain ⟨others, rest⟩ := r
    obtain ⟨hn, hothers, rfl⟩ := takeFrames_eq_some.mp hframes
    have hwhole : takeFrames payloads.length (joined payloads) = some (payloads, []) :=
      takeFrames_eq_some.mpr ⟨rfl, hsmall, (List.append_nil _).symm⟩
    have hagain : takeFrames payloads.length (joined payloads) = some (others, rest ++ cut) :=
      takeFrames_eq_some.mpr ⟨hn, hothers, by rw [← h, List.append_assoc]⟩
    have hrest : [] = rest ++ cut := (Prod.mk.inj (Option.some.inj (hwhole.symm.trans hagain))).2
    exact absurd (List.append_eq_nil_iff.mp hrest.symm).2 hcut

end AuvMiddleware.Framing
