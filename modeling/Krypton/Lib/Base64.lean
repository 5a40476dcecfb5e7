import Mathlib.Data.List.Basic
import Mathlib.Data.List.Nodup

/-!
# Base64

Three bytes are four digits of six bits; two bytes left at the end are three digits and one byte is two. The reader
skips line breaks and does not look at the bits that the last digit has too many. With padding the last four places are
filled up with a symbol that is no digit, and the reader insists on it.

* `Alphabet.decode_encode` — what was written is read back;
* `Alphabet.encode_ne_nil` — something is written for every text that is not empty;
* `Padded.decode_encodePadded` — what was written with padding is read back.
-/

namespace Krypton.Lib

/-! ## Six bits at a time -/

/-- Bytes as numbers of six bits. -/
def splitBits : List UInt8 → List Nat
  | a :: b :: c :: bs =>
    let v := a.toNat * 65536 + b.toNat * 256 + c.toNat
    v / 262144 :: v / 4096 % 64 :: v / 64 % 64 :: v % 64 :: splitBits bs
  | [a, b] =>
    let v := a.toNat * 65536 + b.toNat * 256
    [v / 262144, v / 4096 % 64, v / 64 % 64]
  | [a] => [a.toNat / 4, a.toNat * 16 % 64]
  | [] => []

/-- Numbers of six bits as bytes, `none` when one is left over. -/
def joinBits : List Nat → Option (List UInt8)
  | p :: q :: s :: t :: ds =>
    let v := p * 262144 + q * 4096 + s * 64 + t
    (joinBits ds).map fun bs => .ofNat (v / 65536) :: .ofNat (v / 256) :: .ofNat v :: bs
  | [p, q, s] =>
    let v := p * 262144 + q * 4096 + s * 64
    some [.ofNat (v / 65536), .ofNat (v / 256)]
  | [p, q] => some [.ofNat ((p * 64 + q) / 16)]
  | [_] => none
  | [] => some []

theorem ofNat_eq {n : Nat} {a : UInt8} (h : n % 256 = a.toNat) : UInt8.ofNat n = a := by
  rw [← UInt8.toNat_inj, UInt8.toNat_ofNat']
  exact h

theorem joinBits_splitBits : ∀ bs : List UInt8, joinBits (splitBits bs) = some bs
  | a :: b :: c :: bs => by
    have ha := a.toNat_lt
    have hb := b.toNat_lt
    have hc := c.toNat_lt
    simp only [splitBits, joinBits, joinBits_splitBits bs, Option.map_some]
    rw [ofNat_eq (a := a) (by omega), ofNat_eq (a := b) (by omega), ofNat_eq (a := c) (by omega)]
  | [a, b] => by
    have ha := a.toNat_lt
    have hb := b.toNat_lt
    simp only [splitBits, joinBits]
    rw [ofNat_eq (a := a) (by omega), ofNat_eq (a := b) (by omega)]
  | [a] => by
    have ha := a.toNat_lt
    simp only [splitBits, joinBits]
    rw [ofNat_eq (a := a) (by omega)]
  | [] => rfl

theorem splitBits_lt : ∀ (bs : List UInt8), ∀ d ∈ splitBits bs, d < 64
  | a :: b :: c :: bs => by
    have ha := a.toNat_lt
    have hb := b.toNat_lt
    have hc := c.toNat_lt
    simp only [splitBits, List.forall_mem_cons]
    exact ⟨by omega, by omega, by omega, by omega, splitBits_lt bs⟩
  | [a, b] => by
    have ha := a.toNat_lt
    have hb := b.toNat_lt
    simp only [splitBits, List.forall_mem_cons, List.not_mem_nil, false_implies, implies_true, and_true]
    omega
  | [a] => by
    have ha := a.toNat_lt
    simp only [splitBits, List.forall_mem_cons, List.not_mem_nil, false_implies, implies_true, and_true]
    omega
  | [] => by simp [splitBits]

/-! ## Digits -/

/-- Sixty-four digits, none of them a line break. -/
structure Alphabet where
  digits : List Char
  length : digits.length = 64
  nodup : digits.Nodup
  no_break : '\n' ∉ digits ∧ '\r' ∉ digits

namespace Alphabet

variable (A : Alphabet)

def digit (d : Nat) : Char := A.digits[d]?.getD 'A'

def value (c : Char) : Option Nat := A.digits.findIdx? (· == c)

def encode (bs : List UInt8) : List Char := (splitBits bs).map A.digit

/-- The values of the digits, or the place of a symbol that is none. -/
def values : Nat → List Char → Except Nat (List Nat)
  | _, [] => .ok []
  | i, c :: cs =>
    if c = '\n' ∨ c = '\r' then values (i + 1) cs
    else match A.value c with
      | none => .error i
      | some d => (values (i + 1) cs).map (d :: ·)

/-- Read digits; an error is the place where the reader stops. -/
def decode (cs : List Char) : Except Nat (List UInt8) :=
  match A.values 0 cs with
  | .error i => .error i
  | .ok ds =>
    match joinBits ds with
    | none => .error (cs.length - 1)
    | some bs => .ok bs

variable {A}

theorem digit_eq {d : Nat} (h : d < A.digits.length) : A.digit d = A.digits[d] := by
  rw [digit, List.getElem?_eq_getElem h, Option.getD_some]

theorem value_digit {d : Nat} (h : d < 64) : A.value (A.digit d) = some d := by
  rw [← A.length] at h
  rw [digit_eq h, value, List.findIdx?_eq_some_iff_getElem]
  refine ⟨h, beq_self_eq_true _, ?_⟩
  -- an earlier digit is another one
  intro j hj hsame
  have := A.nodup.getElem_inj_iff.1 (beq_iff_eq.1 hsame)
  omega

theorem digit_no_break {d : Nat} (h : d < 64) : ¬ (A.digit d = '\n' ∨ A.digit d = '\r') := by
  rw [← A.length] at h
  have hmem : A.digit d ∈ A.digits := by
    rw [digit_eq h]
    exact List.getElem_mem h
  intro hbreak
  rcases hbreak with hb | hb
  · exact A.no_break.1 (hb ▸ hmem)
  · exact A.no_break.2 (hb ▸ hmem)

theorem values_digits : ∀ {ds : List Nat} {i : Nat}, (∀ d ∈ ds, d < 64) → A.values i (ds.map A.digit) = .ok ds
  | [], _, _ => rfl
  | d :: ds, i, h => by
    obtain ⟨hd, hds⟩ := List.forall_mem_cons.1 h
    rw [List.map_cons, values, if_neg (digit_no_break hd), value_digit hd]
    simp only [values_digits hds, Except.map]

/-- **What is written is read back.** -/
theorem decode_encode (bs : List UInt8) : A.decode (A.encode bs) = .ok bs := by
  unfold decode encode
  rw [values_digits (splitBits_lt bs)]
  simp only [joinBits_splitBits]

theorem encode_ne_nil {bs : List UInt8} (h : bs ≠ []) : A.encode bs ≠ [] := by
  intro hnil
  have hback := A.decode_encode bs
  rw [hnil] at hback
  exact h (Except.ok.inj hback).symm

end Alphabet

/-! ## Padding -/

/-- An alphabet and a symbol that fills up the last four places. -/
structure Padded extends Alphabet where
  pad : Char
  no_pad : pad ∉ digits
  pad_no_break : ¬ (pad = '\n' ∨ pad = '\r')

namespace Padded

variable (P : Padded)

/-- What follows when the last group has `j` digits. -/
def padding : Nat → List Char
  | 2 => [P.pad, P.pad]
  | 3 => [P.pad]
  | _ => []

def encodePadded (bs : List UInt8) : List Char := P.encode bs ++ P.padding ((splitBits bs).length % 4)

/-- Only line breaks are left. -/
def closed : Nat → List Char → Except Nat (List Nat)
  | _, [] => .ok []
  | i, c :: cs => if c = '\n' ∨ c = '\r' then closed (i + 1) cs else .error i

/-- The second of two symbols of padding. -/
def secondPad : Nat → List Char → Except Nat (List Nat)
  | i, [] => .error i
  | i, c :: cs =>
    if c = '\n' ∨ c = '\r' then secondPad (i + 1) cs else if c = P.pad then closed (i + 1) cs else .error (i - 1)

/-- The first symbol of padding, at the place `i` after `j` digits of a group. -/
def firstPad (i : Nat) (cs : List Char) : Nat → Except Nat (List Nat)
  | 2 => P.secondPad (i + 1) cs
  | 3 => closed (i + 1) cs
  | _ => .error i

/-- The values of the digits before the padding, from the place `i` with `j` digits of a group read. -/
def valuesPadded : Nat → Nat → List Char → Except Nat (List Nat)
  | i, j, [] => if j = 0 then .ok [] else .error (i - j)
  | i, j, c :: cs =>
    match P.value c with
    | some d => (valuesPadded (i + 1) ((j + 1) % 4) cs).map (d :: ·)
    | none =>
      if c = '\n' ∨ c = '\r' then valuesPadded (i + 1) j cs
      else if c = P.pad then P.firstPad i cs j
      else .error i

/-- Read digits and padding; an error is the place where the reader stops. -/
def decodePadded (cs : List Char) : Except Nat (List UInt8) :=
  match P.valuesPadded 0 0 cs with
  | .error i => .error i
  | .ok ds =>
    match joinBits ds with
    | none => .error cs.length
    | some bs => .ok bs

variable {P}

theorem value_pad : P.value P.pad = none := by
  rw [Alphabet.value, List.findIdx?_eq_none_iff]
  intro c hc
  rw [beq_eq_false_iff_ne]
  rintro rfl
  exact P.no_pad hc

/-- A group that is left open has two or three digits. -/
theorem splitBits_length : ∀ bs : List UInt8, (splitBits bs).length % 4 ≠ 1
  | _ :: _ :: _ :: bs => by
    have ih := splitBits_length bs
    simp only [splitBits, List.length_cons]
    omega
  | [_, _] => by simp [splitBits]
  | [_] => by simp [splitBits]
  | [] => by simp [splitBits]

/-- Padding closes the group that is open. -/
theorem valuesPadded_padding {j : Nat} (i : Nat) (hj : j < 4) (h : j ≠ 1) :
    P.valuesPadded i j (P.padding j) = .ok [] := by
  have hopen : j = 0 ∨ j = 2 ∨ j = 3 := by omega
  rcases hopen with rfl | rfl | rfl
  · rfl
  · simp [padding, valuesPadded, value_pad, P.pad_no_break, firstPad, secondPad, closed]
  · simp [padding, valuesPadded, value_pad, P.pad_no_break, firstPad, closed]

theorem valuesPadded_digits : ∀ {ds : List Nat} {i j : Nat}, (∀ d ∈ ds, d < 64) → (j + ds.length) % 4 ≠ 1 → j < 4 →
    P.valuesPadded i j (ds.map P.digit ++ P.padding ((j + ds.length) % 4)) = .ok ds
  | [], i, j, _, hopen, hj => by
    rw [List.length_nil, Nat.add_zero, Nat.mod_eq_of_lt hj] at hopen ⊢
    exact valuesPadded_padding i hj hopen
  | d :: ds, i, j, h, hopen, hj => by
    obtain ⟨hd, hds⟩ := List.forall_mem_cons.1 h
    have hlen : (j + (d :: ds).length) % 4 = ((j + 1) % 4 + ds.length) % 4 := by
      rw [List.length_cons]
      omega
    rw [hlen] at hopen ⊢
    rw [List.map_cons, List.cons_append, valuesPadded, Alphabet.value_digit hd]
    simp only [valuesPadded_digits hds hopen (Nat.mod_lt _ (by decide)), Except.map]

/-- **What is written with padding is read back.** -/
theorem decode_encodePadded (bs : List UInt8) : P.decodePadded (P.encodePadded bs) = .ok bs := by
  have hvalues := valuesPadded_digits (P := P) (i := 0) (j := 0) (splitBits_lt bs)
    (by rw [Nat.zero_add]; exact splitBits_length bs) (by decide)
  rw [Nat.zero_add] at hvalues
  unfold decodePadded encodePadded Alphabet.encode
  rw [hvalues]
  simp only [joinBits_splitBits]

end Padded

end Krypton.Lib
