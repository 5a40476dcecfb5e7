import Krypton.Lib.Grouping

/-!
# Keys, key versions and tenants

The records of `pkg/model`: keys with their lifecycle state and processing status, key versions, tenants, labels.
Timestamps are nanoseconds, identifiers and kinds are texts.

A UUID has several texts. The checks of requests read them with `uuid.Parse`, the columns of the database with a reader
of their own, which compares by value and gives one text back.

* `uuidIn_of_parse`, `uuidIn_of_urn` — the database reads what `uuid.Parse` reads, but for the form of a URN;
* `uuidIn_idem` — what is given back is read as itself.
-/

namespace Krypton

open Lib

abbrev Bytes : Type := List UInt8

/-! ## States -/

inductive KeyLifeCycleState where
  | preActivation | active | suspended | deactivated | compromised | destroyed
  deriving DecidableEq, Repr

inductive KeyProcessingStatus where
  | pending | inProgress | completed | failed
  deriving DecidableEq, Repr

inductive KeyVersionProcessingState where
  | usable | reWrapping | activating
  deriving DecidableEq, Repr

/-- The text a state is stored and sent as. -/
def KeyLifeCycleState.text : KeyLifeCycleState → String
  | .preActivation => "pre-activation"
  | .active => "active"
  | .suspended => "suspended"
  | .deactivated => "deactivated"
  | .compromised => "compromised"
  | .destroyed => "destroyed"

def KeyProcessingStatus.text : KeyProcessingStatus → String
  | .pending => "pending"
  | .inProgress => "in-progress"
  | .completed => "completed"
  | .failed => "failed"

def KeyVersionProcessingState.text : KeyVersionProcessingState → String
  | .usable => "usable"
  | .reWrapping => "re-wrapping"
  | .activating => "activating"

/-! ## UUID texts -/

/-- The bytes of a text. -/
def utf8 (s : String) : Bytes := s.toByteArray.data.toList

/-- A text of ASCII characters, given by their codes. -/
def ascii (bs : Bytes) : String := String.ofList (bs.map fun b => Char.ofNat b.toNat)

/-- The codes of the digits, of `a` to `f` and of `A` to `F`. -/
def hexDigits : Bytes :=
  [48, 49, 50, 51, 52, 53, 54, 55, 56, 57, 97, 98, 99, 100, 101, 102, 65, 66, 67, 68, 69, 70]

/-- Hexadecimal digits and the hyphen. -/
def hex : Digits UInt8 := ⟨hexDigits.contains, 45, by decide⟩

/-- Lower case for ASCII letters. -/
def toLower (b : UInt8) : UInt8 := if 65 ≤ b ∧ b ≤ 90 then b + 32 else b

/-- The standard format of a UUID: groups of 8, 4, 4, 4 and 12 digits. -/
def standard (left : Nat) : Place := if [24, 20, 16, 12].contains left then .required else .without

/-- Digits alone. -/
def solid (_ : Nat) : Place := .without

/-- Any group of four digits may end with a hyphen. -/
def loose (left : Nat) : Place := if [28, 24, 20, 16, 12, 8, 4].contains left then .optional else .without

/-- The digits of a UUID that ends with `rest`. -/
def uuidDigits (format : Nat → Place) (rest bs : Bytes) : Option Bytes :=
  match hex.scan format 32 bs with
  | some (ds, r) => if r = rest then some ds else none
  | none => none

/-- The text of a UUID as it is written: the standard format in lower case. -/
def uuidText (digits : Bytes) : String := ascii (hex.print standard (digits.map toLower))

/-- The text starts with `urn:uuid:`. -/
def isURN (s : String) : Bool := ((utf8 s).take 9).map toLower == [117, 114, 110, 58, 117, 117, 105, 100, 58]

/-- `uuid.Parse`: the standard format, alone, in braces or as a URN, or digits alone, in either case. The value is the
text the UUID is written as. -/
def uuidParse (s : String) : Option String :=
  let bs := utf8 s
  let digits :=
    if isURN s then uuidDigits standard [] (bs.drop 9)
    else if bs.head? = some 123 then uuidDigits standard [125] bs.tail
    else (uuidDigits standard [] bs).or (uuidDigits solid [] bs)
  digits.map uuidText

/-- What a UUID column of the database reads: the loose format, alone or in braces, in either case. It is given back as
the text the UUID is written as. -/
def uuidIn (s : String) : Option String :=
  let bs := utf8 s
  let digits := if bs.head? = some 123 then uuidDigits loose [125] bs.tail else uuidDigits loose [] bs
  digits.map uuidText

/-- The bytes a UUID is written with. -/
def uuidBytes : Bytes := hex.sep :: hexDigits

/-- The 32 digits of a UUID. -/
structure IsDigits (ds : Bytes) : Prop where
  length : ds.length = 32
  digit : ∀ d ∈ ds, hex.digit d = true

section
variable {s u : String} {bs ds rest : Bytes} {format : Nat → Place}

theorem uuidDigits_eq_some : uuidDigits format rest bs = some ds ↔ hex.scan format 32 bs = some (ds, rest) := by
  unfold uuidDigits
  cases hex.scan format 32 bs with
  | none => simp
  | some r =>
    simp only [Option.ite_none_right_eq_some, Option.some.injEq, Prod.ext_iff]
    exact and_comm

theorem isDigits_of_uuidDigits (h : uuidDigits format rest bs = some ds) : IsDigits ds :=
  let ⟨hlength, hdigit⟩ := Digits.digits_of_scan (uuidDigits_eq_some.1 h)
  ⟨hlength, hdigit⟩

theorem toLower_digit {b : UInt8} (h : hex.digit b = true) :
    hex.digit (toLower b) = true ∧ toLower (toLower b) = toLower b := by
  have hall : (hexDigits.all fun b => hexDigits.contains (toLower b) && toLower (toLower b) == toLower b) = true := by
    decide
  have hb : b ∈ hexDigits := by simpa [hex] using h
  simpa [hex] using List.all_eq_true.1 hall b hb

theorem IsDigits.lower (h : IsDigits ds) :
    IsDigits (ds.map toLower) ∧ (ds.map toLower).map toLower = ds.map toLower := by
  refine ⟨⟨by rw [List.length_map, h.length], ?_⟩, ?_⟩
  · rintro d hd
    obtain ⟨d₀, hd₀, rfl⟩ := List.mem_map.1 hd
    exact (toLower_digit (h.digit d₀ hd₀)).1
  · rw [List.map_map]
    exact List.map_congr_left fun d hd => (toLower_digit (h.digit d hd)).2

/-- The bytes of a text made of UUID bytes are those bytes. -/
theorem utf8_ascii {bs : Bytes} (h : ∀ b ∈ bs, b ∈ uuidBytes) : utf8 (ascii bs) = bs := by
  have hone : (uuidBytes.all fun b => String.utf8EncodeChar (Char.ofNat b.toNat) == [b]) = true := by decide
  unfold utf8 ascii
  rw [String.toByteArray_ofList, List.utf8Encode, List.data_toByteArray, List.flatMap_map]
  induction bs with
  | nil => rfl
  | cons b bs ih =>
    rw [List.flatMap_cons, eq_of_beq (List.all_eq_true.1 hone b (h b List.mem_cons_self)), List.singleton_append]
    exact congrArg (b :: ·) (ih fun b' hb' => h b' (List.mem_cons_of_mem _ hb'))

/-- The bytes a UUID is written as. -/
theorem utf8_uuidText (h : IsDigits ds) :
    utf8 (uuidText ds) = hex.print standard (ds.map toLower) ∧ ∀ b ∈ utf8 (uuidText ds), b ∈ uuidBytes := by
  have hbytes : ∀ b ∈ hex.print standard (ds.map toLower), b ∈ uuidBytes := by
    intro b hb
    rcases Digits.mem_print hb with rfl | hd
    · exact List.mem_cons_self
    · exact List.mem_cons_of_mem _ (by simpa [hex] using h.lower.1.digit b hd)
  have heq : utf8 (uuidText ds) = hex.print standard (ds.map toLower) := utf8_ascii hbytes
  exact ⟨heq, heq ▸ hbytes⟩

theorem uuidText_lower (h : IsDigits ds) : uuidText (ds.map toLower) = uuidText ds := by
  rw [uuidText, uuidText, h.lower.2]

/-- A text that is written is in the standard format. -/
theorem uuidDigits_uuidText (h : IsDigits ds) :
    uuidDigits standard [] (utf8 (uuidText ds)) = some (ds.map toLower) := by
  have hscan : hex.scan standard (ds.map toLower).length (hex.print standard (ds.map toLower) ++ []) =
      some (ds.map toLower, []) := Digits.scan_print h.lower.1.digit
  rw [h.lower.1.length, List.append_nil] at hscan
  rw [(utf8_uuidText h).1]
  exact uuidDigits_eq_some.2 hscan

/-- The first byte is a digit. -/
theorem head_of_uuidDigits (hf : format 32 = .without) (h : uuidDigits format rest bs = some ds) :
    ∃ b, bs.head? = some b ∧ b ∈ hexDigits := by
  obtain ⟨b, hb, hd⟩ := Digits.head_of_scan hf (uuidDigits_eq_some.1 h)
  exact ⟨b, hb, by simpa [hex] using hd⟩

theorem head_ne_brace (hf : format 32 = .without) (h : uuidDigits format rest bs = some ds) : bs.head? ≠ some 123 := by
  obtain ⟨b, hb, hd⟩ := head_of_uuidDigits hf h
  rintro heq
  cases heq.symm.trans hb
  revert hd
  decide

theorem isURN_head (h : isURN s = true) : ∃ b, (utf8 s).head? = some b ∧ b ∉ 123 :: hexDigits := by
  have hno : ((123 :: hexDigits).all fun b => toLower b ≠ 117) = true := by decide
  unfold isURN at h
  rw [beq_iff_eq] at h
  cases hs : utf8 s with
  | nil =>
    rw [hs] at h
    cases h
  | cons b bs =>
    rw [hs, List.take_succ_cons, List.map_cons, List.cons.injEq] at h
    exact ⟨b, rfl, fun hb => absurd h.1 (by simpa using List.all_eq_true.1 hno b hb)⟩

theorem isURN_of_uuidDigits (hf : format 32 = .without) (h : uuidDigits format rest (utf8 s) = some ds) :
    isURN s = false := by
  rw [Bool.eq_false_iff]
  intro hurn
  obtain ⟨b, hb, hno⟩ := isURN_head hurn
  obtain ⟨b', hb', hd⟩ := head_of_uuidDigits hf h
  cases hb.symm.trans hb'
  exact hno (List.mem_cons_of_mem _ hd)

/-- What every strict format reads, the loose one reads. -/
theorem uuidDigits_loose (hf : ∀ left, loose left = format left ∨ loose left = .optional)
    (h : uuidDigits format rest bs = some ds) : uuidDigits loose rest bs = some ds :=
  uuidDigits_eq_some.2 (Digits.scan_relax hf (uuidDigits_eq_some.1 h))

theorem loose_standard (left : Nat) : loose left = standard left ∨ loose left = .optional := by
  unfold loose standard
  by_cases h : left ∈ [28, 24, 20, 16, 12, 8, 4]
  · exact .inr (if_pos (by simpa using h))
  · have h' : left ∉ [24, 20, 16, 12] := by
      simp only [List.mem_cons, List.not_mem_nil, or_false] at h ⊢
      omega
    exact .inl (by simp [h, h'])

theorem loose_solid (left : Nat) : loose left = solid left ∨ loose left = .optional := by
  unfold loose solid
  split
  · exact .inr rfl
  · exact .inl rfl

theorem uuidIn_digits (h : uuidIn s = some u) : ∃ ds, IsDigits ds ∧ uuidText ds = u := by
  obtain ⟨ds, hds, rfl⟩ := Option.map_eq_some_iff.1 h
  split at hds <;> exact ⟨ds, isDigits_of_uuidDigits hds, rfl⟩

theorem uuidParse_digits (h : uuidParse s = some u) : ∃ ds, IsDigits ds ∧ uuidText ds = u := by
  obtain ⟨ds, hds, rfl⟩ := Option.map_eq_some_iff.1 h
  refine ⟨ds, ?_, rfl⟩
  split at hds
  · exact isDigits_of_uuidDigits hds
  · split at hds
    · exact isDigits_of_uuidDigits hds
    · rcases Option.or_eq_some_iff.1 hds with hds | ⟨-, hds⟩ <;> exact isDigits_of_uuidDigits hds

/-- `uuid.Parse` reads a text that is written. -/
theorem uuidParse_uuidText (h : IsDigits ds) : uuidParse (uuidText ds) = some (uuidText ds) := by
  have hds := uuidDigits_uuidText h
  have hurn : isURN (uuidText ds) = false := isURN_of_uuidDigits rfl hds
  unfold uuidParse
  simp only [hurn, if_neg (head_ne_brace rfl hds), hds]
  exact congrArg some (uuidText_lower h)

/-- The database reads what `uuid.Parse` reads, as the same UUID, but for the URN. -/
theorem uuidIn_of_parse (h : uuidParse s = some u) (hurn : isURN s = false) : uuidIn s = some u := by
  obtain ⟨ds, hds, rfl⟩ := Option.map_eq_some_iff.1 h
  refine Option.map_eq_some_iff.2 ⟨ds, ?_, rfl⟩
  rw [if_neg (by rw [hurn]; nofun)] at hds
  split at hds
  · rename_i hbrace
    rw [if_pos hbrace]
    exact uuidDigits_loose loose_standard hds
  · rename_i hbrace
    rw [if_neg hbrace]
    rcases Option.or_eq_some_iff.1 hds with hds | ⟨-, hds⟩
    · exact uuidDigits_loose loose_standard hds
    · exact uuidDigits_loose loose_solid hds

/-- It does not read a URN. -/
theorem uuidIn_of_urn (h : isURN s = true) : uuidIn s = none := by
  obtain ⟨b, hb, hno⟩ := isURN_head h
  have hbrace : (utf8 s).head? ≠ some 123 := by
    rintro heq
    cases heq.symm.trans hb
    exact hno List.mem_cons_self
  unfold uuidIn
  simp only [if_neg hbrace, Option.map_eq_none_iff]
  cases hds : uuidDigits loose [] (utf8 s) with
  | none => rfl
  | some ds => cases (isURN_of_uuidDigits rfl hds).symm.trans h

theorem uuidIn_uuidText (h : IsDigits ds) : uuidIn (uuidText ds) = some (uuidText ds) :=
  uuidIn_of_parse (uuidParse_uuidText h) (isURN_of_uuidDigits rfl (uuidDigits_uuidText h))

end

/-- A text that is given back is read as itself. -/
theorem uuidIn_idem {s t : String} (h : uuidIn s = some t) : uuidIn t = some t := by
  obtain ⟨ds, hds, rfl⟩ := uuidIn_digits h
  exact uuidIn_uuidText hds

/-- A UUID text as `uuid.New` makes it: its own canonical form. -/
structure Uuid where
  text : String
  canonical : uuidIn text = some text

/-! ## Labels -/

abbrev Labels : Type := List (String × String)

def Labels.get (l : Labels) (k : String) : Option String := (l.find? fun p => p.1 == k).map Prod.snd

def reservedLabelPrefix : String := "krypton:"

/-- `strings.HasPrefix`. -/
def hasPrefix (s p : String) : Bool := p.toList.isPrefixOf s.toList

def isReservedKey (k : String) : Bool := hasPrefix k reservedLabelPrefix

/-- A reserved label key, if there is one. -/
def Labels.hasReserved (l : Labels) : Option String := (l.find? fun p => isReservedKey p.1).map Prod.fst

/-! ## Records -/

structure Key where
  id : String
  name : String
  tenantID : String
  kind : String
  parentID : Option String
  managedBy : String
  labels : Labels
  lifeCycleState : KeyLifeCycleState
  status : KeyProcessingStatus
  createdAt : Int
  updatedAt : Int
  deriving DecidableEq, Repr

/-- Same name, tenant, node, kind and parent; the identifiers may differ. -/
def Key.isSame (k other : Key) : Bool :=
  k.parentID == other.parentID && k.name == other.name && k.tenantID == other.tenantID &&
    k.managedBy == other.managedBy && k.kind == other.kind

/-- Layers of keys, the root of the tree first. -/
abbrev KeyTree : Type := List (List Key)

def newKey (id : Uuid) (now : Int) (tenantID name kind : String) (parentID : Option String) (managedBy : String)
    (labels : Labels) : Key where
  id := id.text
  name := name
  tenantID := tenantID
  kind := kind
  parentID := parentID
  managedBy := managedBy
  labels := labels
  lifeCycleState := .preActivation
  status := .pending
  createdAt := now
  updatedAt := now

structure KeyVersion where
  tenantID : String
  keyID : String
  version : Nat
  revision : Nat
  parentKeyID : Option String
  parentKeyVersion : Option Nat
  lifeCycleState : KeyLifeCycleState
  processingState : KeyVersionProcessingState
  labels : Labels
  createdAt : Int
  updatedAt : Int
  deriving DecidableEq, Repr

def newKeyVersion (now : Int) (tenantID keyID : String) (version : Nat) (parentKeyID : Option String)
    (parentKeyVersion : Option Nat) : KeyVersion where
  tenantID := tenantID
  keyID := keyID
  version := version
  revision := 1
  parentKeyID := parentKeyID
  parentKeyVersion := parentKeyVersion
  lifeCycleState := .active
  processingState := .usable
  labels := []
  createdAt := now
  updatedAt := now

def KeyVersion.withLabels (kv : KeyVersion) (ls : Labels) : KeyVersion := { kv with labels := ls }

/-- `tenant:key:version:revision`, the data a version's secret is bound to. -/
def KeyVersion.aad (kv : KeyVersion) : Bytes :=
  utf8 (kv.tenantID ++ ":" ++ kv.keyID ++ ":" ++ toString kv.version ++ ":" ++ toString kv.revision)

structure Tenant where
  id : String
  name : String
  labels : Labels
  createdAt : Int
  updatedAt : Int
  deriving DecidableEq, Repr

def newTenant (id : Uuid) (now : Int) (name : String) (labels : Labels) : Tenant := ⟨id.text, name, labels, now, now⟩

end Krypton
