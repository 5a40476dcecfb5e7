import Mathlib.Data.List.Basic

/-!
# Authenticated encryption

A cipher with associated data over byte strings, as far as the envelope around a key needs it: what was sealed under a
key, a nonce and associated data opens under the same key and data to the same plaintext, and a sealed text is longer
than its plaintext by at least a nonce and a tag. `Strict` says in addition that a sealed text opens under no other key
or data, and `tagged` is a cipher with that; `Exact` says that the lengths differ by just a nonce and a tag, as they do
for `padded`.
-/

namespace Krypton.Lib

/-- An authenticated cipher: `seal` takes key, nonce, plaintext and associated data. -/
structure Aead where
  «seal» : List UInt8 → List UInt8 → List UInt8 → List UInt8 → List UInt8
  «open» : List UInt8 → List UInt8 → List UInt8 → Option (List UInt8)
  open_seal : ∀ key nonce p aad, «open» key («seal» key nonce p aad) aad = some p
  /-- 12 bytes of nonce and 16 of tag. -/
  overhead : ∀ key nonce p aad, 28 + p.length ≤ («seal» key nonce p aad).length

namespace Aead

attribute [simp] open_seal

/-- A sealed text opens only under the key and the data it was sealed with. -/
def Strict (A : Aead) : Prop :=
  ∀ key nonce p aad key' aad' q, A.open key' (A.seal key nonce p aad) aad' = some q → key' = key ∧ aad' = aad

/-- A text and its seal differ in length by a nonce and a tag, as in AES-GCM. -/
structure Exact (A : Aead) : Prop where
  seal_length : ∀ key nonce p aad, (A.seal key nonce p aad).length = 28 + p.length
  open_length : ∀ key c aad p, A.open key c aad = some p → c.length = 28 + p.length

/-! ## A cipher that pads -/

/-- The plaintext between room for a nonce and a tag. -/
def padded : Aead where
  «seal» _ _ p _ := List.replicate 12 0 ++ (p ++ List.replicate 16 0)
  «open» _ c _ := if 28 ≤ c.length then some ((c.drop 12).take (c.length - 28)) else none
  open_seal key nonce p aad := by
    rw [if_pos (by simp only [List.length_append, List.length_replicate]; omega)]
    simp
  overhead key nonce p aad := by simp only [List.length_append, List.length_replicate]; omega

theorem padded_exact : padded.Exact := by
  refine ⟨fun key nonce p aad => ?_, fun key c aad p h => ?_⟩
  · simp only [padded, List.length_append, List.length_replicate]
    omega
  · simp only [padded] at h
    split_ifs at h with hc
    cases h
    simp only [List.length_take, List.length_drop]
    omega

/-! ## A cipher that writes its key and data in front of the plaintext -/

/-- A self-delimiting copy of a byte string. -/
def frame : List UInt8 → List UInt8
  | [] => [0]
  | b :: bs => 1 :: b :: frame bs

/-- Read a framed byte string off the front. -/
def unframe : List UInt8 → Option (List UInt8 × List UInt8)
  | 1 :: b :: rest => (unframe rest).map fun p => (b :: p.1, p.2)
  | 0 :: rest => some ([], rest)
  | _ => none

theorem unframe_frame (bs rest : List UInt8) : unframe (frame bs ++ rest) = some (bs, rest) := by
  induction bs with
  | nil => rfl
  | cons b bs ih => simp [frame, unframe, ih]

/-- Open a framed text when its key and data are the given ones. -/
def tagOpen (key c aad : List UInt8) : Option (List UInt8) :=
  match unframe (c.drop 28) with
  | none => none
  | some (key', c') =>
    match unframe c' with
    | none => none
    | some (aad', p) => if key' = key ∧ aad' = aad then some p else none

def tagged : Aead where
  «seal» key _ p aad := List.replicate 28 0 ++ (frame key ++ (frame aad ++ p))
  «open» := tagOpen
  open_seal key nonce p aad := by simp [tagOpen, unframe_frame]
  overhead key nonce p aad := by simp only [List.length_append, List.length_replicate]; omega

theorem tagged_strict : tagged.Strict := by
  intro key nonce p aad key' aad' q h
  simp only [tagged, tagOpen, List.drop_left', List.length_replicate, unframe_frame] at h
  split at h
  · rename_i hk
    exact ⟨hk.1.symm, hk.2.symm⟩
  · cases h

end Aead

end Krypton.Lib
