import Mathlib.Data.List.Nodup
import Krypton.Errors
import Krypton.Lib.Check

/-!
# Key hierarchies

An ordered list of key kinds with their roles (`KeyHierarchy`), its validation, and the lookups by kind.

* `KeyHierarchy.validate_kinds` — the kinds of an accepted hierarchy are pairwise different;
* `KeyHierarchy.validate_root` — exactly the first spec of an accepted hierarchy has the root role;
* `KeyHierarchy.findParentKeySpec_eq` — the spec before a kind is the one at the index before it;
* `KeyHierarchy.validate_exact` — validation accepts exactly the hierarchies that keep every rule (`WellFormed`), and
  the lookups agree on those.
-/

namespace Krypton

open Lib

inductive KeyRole where
  | root | kek | dek | tek
  | other (name : String)
  deriving DecidableEq, Repr

inductive KeyAlgorithm where
  | aes256
  | other (name : String)
  deriving DecidableEq, Repr

/-! ## Label requirements -/

inductive ValidatorType where
  | regex | enum
  | other (name : String)
  deriving DecidableEq, Repr

structure LabelValidator where
  type : ValidatorType
  params : Labels
  /-- Whether `regexp.Compile` accepts the pattern. -/
  compiles : Bool
  deriving DecidableEq, Repr

structure LabelRequirement where
  isRequired : Bool
  validator : Option LabelValidator
  deriving DecidableEq, Repr

structure LabelsSpec where
  requirements : List (String × LabelRequirement)
  allowUserLabels : Bool
  deriving DecidableEq, Repr

def LabelValidator.init (lv : LabelValidator) : Except Err Unit :=
  match lv.type with
  | .regex =>
    match lv.params.get "pattern" with
    | none => .error (.of .labelValidatorMissingRegexPattern)
    | some p => check lv.compiles (.detail .labelValidatorInvalidRegexPattern ("invalid regex pattern '" ++ p ++ "'"))
  | .enum => check (lv.params.get "values").isSome (.of .labelValidatorMissingEnumValues)
  | .other _ => .error (.of .labelValidatorInvalidType)

def LabelRequirement.init (lr : LabelRequirement) : Except Err Unit :=
  match lr.validator with
  | some lv => lv.init
  | none => .ok ()

def LabelsSpec.init (ls : LabelsSpec) : Except Err Unit := do
  check (ls.allowUserLabels || !ls.requirements.isEmpty)
    (.detail .labelsSpecRequirementEmpty "no label requirements defined")
  checkAll (fun p => p.2.init) ls.requirements

/-! ## Key specs and hierarchies -/

structure KeySpec where
  kind : String
  role : KeyRole
  algorithm : KeyAlgorithm
  labelsSpec : LabelsSpec
  deriving DecidableEq, Repr

def validKeyRoles : List KeyRole := [.root, .kek, .dek, .tek]

def KeySpec.validate (k : KeySpec) : Except Err Unit := do
  check (k.kind ≠ "") (.of .keySpecKindEmpty)
  check (validKeyRoles.contains k.role) (.of .keySpecRoleInvalid)
  check (k.algorithm = .aes256) (.of .keySpecAlgorithmInvalid)
  k.labelsSpec.init

structure KeyHierarchy where
  name : String
  keySpecs : List KeySpec
  deriving DecidableEq, Repr

namespace KeyHierarchy

/-- The role a spec must have at index `i` of `keyLen` specs. -/
def validateRole (keyLen i : Nat) (role : KeyRole) : Except Err Unit :=
  if i = 0 then check (role = .root) (.of .keyHierarchyFirstKeyNotRoot)
  else if i = keyLen - 1 then check (role = .dek) (.of .keyHierarchyLastKeyNotDek)
  else match role with
    | .root => .error (.of .keyHierarchyDuplicateRoot)
    | .dek => .error (.of .keyHierarchyInvalidIntermediateKey)
    | _ => .ok ()

/-- The loop of `Validate` over the specs from index `i` on, with the kinds seen before. -/
def validateFrom (keyLen : Nat) : Nat → List String → List KeySpec → Except Err Unit
  | _, _, [] => .ok ()
  | i, seenKind, k :: ks => do
    k.validate.mapError (.context ("key at index " ++ toString i))
    validateRole keyLen i k.role
    check (!seenKind.contains k.kind) (.of .keyHierarchyDuplicateKind)
    validateFrom keyLen (i + 1) (k.kind :: seenKind) ks

def validate (h : KeyHierarchy) : Except Err Unit := do
  check (h.name ≠ "") (.of .keyHierarchyNameEmpty)
  check (!h.keySpecs.isEmpty) (.of .keyHierarchyKeysListEmpty)
  validateFrom h.keySpecs.length 0 [] h.keySpecs

def findKeySpec (h : KeyHierarchy) (kind : String) : Option KeySpec := h.keySpecs.find? fun k => k.kind == kind

/-- The position of a kind, `none` where the source returns -1. -/
def indexOf (h : KeyHierarchy) (kind : String) : Option Nat := h.keySpecs.findIdx? fun k => k.kind == kind

/-- The spec right before a kind. -/
def findParentKeySpec (h : KeyHierarchy) (kind : String) : Option KeySpec :=
  match h.indexOf kind with
  | none | some 0 => none
  | some (i + 1) => h.keySpecs[i]?

/-! ## Accepted hierarchies -/

/-- The loop accepts exactly the specs that pass their own checks, one by one, with kinds that are new each time. -/
theorem validateFrom_eq_ok {keyLen : Nat} : ∀ {i : Nat} {seen : List String} {ks : List KeySpec},
    validateFrom keyLen i seen ks = .ok () ↔
      (ks.map KeySpec.kind).Nodup ∧ (∀ k ∈ ks, k.kind ∉ seen) ∧
        ∀ j k, ks[j]? = some k → k.validate = .ok () ∧ validateRole keyLen (i + j) k.role = .ok ()
  | _, _, [] => by simp [validateFrom]
  | i, seen, k :: ks => by
    simp only [validateFrom, bind_unit_eq_ok, mapError_eq_ok, check_eq_ok, Bool.not_eq_eq_eq_not, Bool.not_true,
      List.contains_eq_mem, decide_eq_false_iff_not]
    rw [validateFrom_eq_ok, List.map_cons, List.nodup_cons, List.forall_mem_cons]
    have hshift : ∀ j, i + 1 + j = i + (j + 1) := by omega
    constructor
    · intro h
      obtain ⟨hk, hr, hseen, hnd, hns, hall⟩ := h
      refine ⟨⟨?_, hnd⟩, ⟨hseen, ?_⟩, ?_⟩
      · intro hm
        obtain ⟨k', hk', he⟩ := List.mem_map.1 hm
        exact hns k' hk' (he ▸ List.mem_cons_self)
      · intro k' hk' hm
        exact hns k' hk' (List.mem_cons_of_mem _ hm)
      · intro j k' hj
        cases j with
        | zero => cases hj; exact ⟨hk, hr⟩
        | succ j => simpa only [hshift] using hall j k' hj
    · intro h
      obtain ⟨⟨hnew, hnd⟩, ⟨hseen, hns⟩, hall⟩ := h
      obtain ⟨hk, hr⟩ := hall 0 k rfl
      refine ⟨hk, hr, hseen, hnd, ?_, ?_⟩
      · intro k' hk' hm
        rcases List.mem_cons.1 hm with he | hm
        · exact hnew (he ▸ List.mem_map_of_mem hk')
        · exact hns k' hk' hm
      · intro j k' hj
        simpa only [hshift] using hall (j + 1) k' hj

variable {h : KeyHierarchy}

theorem validate_eq_ok : h.validate = .ok () ↔
    h.name ≠ "" ∧ h.keySpecs ≠ [] ∧ validateFrom h.keySpecs.length 0 [] h.keySpecs = .ok () := by
  simp only [validate, bind_unit_eq_ok, check_eq_ok, decide_eq_true_eq, Bool.not_eq_eq_eq_not, Bool.not_true,
    List.isEmpty_eq_false_iff]

theorem validate_from (hv : h.validate = .ok ()) : validateFrom h.keySpecs.length 0 [] h.keySpecs = .ok () :=
  (validate_eq_ok.1 hv).2.2

theorem validate_kinds (hv : h.validate = .ok ()) : (h.keySpecs.map KeySpec.kind).Nodup :=
  (validateFrom_eq_ok.1 (validate_from hv)).1

theorem validateRole_root {keyLen i : Nat} {role : KeyRole} (h : validateRole keyLen i role = .ok ()) :
    role = .root ↔ i = 0 := by
  unfold validateRole at h
  split at h
  · simp_all
  · split at h
    · simp only [check_eq_ok, decide_eq_true_eq] at h
      simp_all
    · split at h <;> simp_all

/-- The role check at an index: the root role stands first and nowhere else, the dek role last and nowhere else, where
the first spec of a single one does not count as the last. -/
theorem validateRole_eq_ok {keyLen i : Nat} (hi : i < keyLen) {role : KeyRole} :
    validateRole keyLen i role = .ok () ↔
      (role = .root ↔ i = 0) ∧ (role = .dek ↔ 1 < keyLen ∧ i + 1 = keyLen) := by
  constructor
  · intro h
    refine ⟨validateRole_root h, ?_⟩
    unfold validateRole at h
    split at h
    case isTrue h0 =>
      simp only [check_eq_ok, decide_eq_true_eq] at h
      subst h h0
      simp only [reduceCtorEq, false_iff]
      omega
    case isFalse h0 =>
      split at h
      case isTrue hlast =>
        simp only [check_eq_ok, decide_eq_true_eq] at h
        simp only [h, true_iff]
        omega
      case isFalse hlast =>
        have hne : role ≠ .dek := by
          intro hd
          simp [hd] at h
        simp only [hne, false_iff]
        omega
  · intro h
    obtain ⟨hroot, hdek⟩ := h
    unfold validateRole
    split
    case isTrue h0 => simp [hroot.2 h0]
    case isFalse h0 =>
      split
      case isTrue hlast => simp [hdek.2 (by omega)]
      case isFalse hlast =>
        split
        · exact absurd (hroot.1 rfl) h0
        · have := hdek.1 rfl
          omega
        · rfl

/-- Exactly the first spec of an accepted hierarchy has the root role. -/
theorem validate_root (hv : h.validate = .ok ()) {i : Nat} {k : KeySpec} (hi : h.keySpecs[i]? = some k) :
    k.role = .root ↔ i = 0 := by
  obtain ⟨-, -, hall⟩ := validateFrom_eq_ok.1 (validate_from hv)
  simpa using validateRole_root (hall i k hi).2

/-- The rules for a hierarchy, one by one. -/
structure WellFormed (h : KeyHierarchy) : Prop where
  name : h.name ≠ ""
  nonempty : h.keySpecs ≠ []
  valid : ∀ k ∈ h.keySpecs, k.validate = .ok ()
  /-- The first and only the first spec has the root role. -/
  root : ∀ i k, h.keySpecs[i]? = some k → (k.role = .root ↔ i = 0)
  /-- Where there is more than one spec the last has the dek role, and no other has it. -/
  dek : ∀ i k, h.keySpecs[i]? = some k → (k.role = .dek ↔ 1 < h.keySpecs.length ∧ i + 1 = h.keySpecs.length)
  /-- Those between the first and the last have one of the two other roles. -/
  inner : ∀ i k, h.keySpecs[i]? = some k → 0 < i → i + 1 < h.keySpecs.length → k.role = .kek ∨ k.role = .tek
  kinds : (h.keySpecs.map KeySpec.kind).Nodup

theorem role_of_validate {k : KeySpec} (hk : k.validate = .ok ()) :
    k.role = .root ∨ k.role = .kek ∨ k.role = .dek ∨ k.role = .tek := by
  simp only [KeySpec.validate, bind_unit_eq_ok, check_eq_ok] at hk
  simpa [validKeyRoles] using hk.2.1

theorem WellFormed.of_validate (hv : h.validate = .ok ()) : h.WellFormed := by
  obtain ⟨hname, hne, hfrom⟩ := validate_eq_ok.1 hv
  obtain ⟨hnd, -, hall⟩ := validateFrom_eq_ok.1 hfrom
  have hrole : ∀ i k, h.keySpecs[i]? = some k →
      (k.role = .root ↔ i = 0) ∧ (k.role = .dek ↔ 1 < h.keySpecs.length ∧ i + 1 = h.keySpecs.length) := by
    intro i k hi
    have hlt : i < h.keySpecs.length := (List.getElem?_eq_some_iff.1 hi).1
    rw [← validateRole_eq_ok hlt]
    simpa only [Nat.zero_add] using (hall i k hi).2
  refine ⟨hname, hne, ?_, fun i k hi => (hrole i k hi).1, fun i k hi => (hrole i k hi).2, ?_, hnd⟩
  · intro k hk
    obtain ⟨i, hi⟩ := List.mem_iff_getElem?.1 hk
    exact (hall i k hi).1
  · intro i k hi h0 hlast
    rcases role_of_validate (hall i k hi).1 with hr | hr | hr | hr
    · have := (hrole i k hi).1.1 hr
      omega
    · exact .inl hr
    · have := (hrole i k hi).2.1 hr
      omega
    · exact .inr hr

theorem WellFormed.validate (hw : h.WellFormed) : h.validate = .ok () := by
  refine validate_eq_ok.2 ⟨hw.name, hw.nonempty, validateFrom_eq_ok.2 ⟨hw.kinds, by simp, ?_⟩⟩
  intro i k hi
  have hlt : i < h.keySpecs.length := (List.getElem?_eq_some_iff.1 hi).1
  refine ⟨hw.valid k (List.mem_of_getElem? hi), ?_⟩
  rw [Nat.zero_add, validateRole_eq_ok hlt]
  exact ⟨hw.root i k hi, hw.dek i k hi⟩

/-! ## Lookups -/

theorem indexOf_eq_some (hv : h.validate = .ok ()) {kind : String} {i : Nat} :
    h.indexOf kind = some i ↔ ∃ k, h.keySpecs[i]? = some k ∧ k.kind = kind := by
  have hnd := validate_kinds hv
  unfold indexOf
  rw [List.findIdx?_eq_some_iff_getElem]
  constructor
  · rintro ⟨hi, hk, -⟩
    exact ⟨h.keySpecs[i], List.getElem?_eq_getElem hi, by simpa using hk⟩
  · rintro ⟨k, hk, rfl⟩
    obtain ⟨hi, rfl⟩ := List.getElem?_eq_some_iff.1 hk
    refine ⟨hi, by simp, fun j hj => ?_⟩
    -- an earlier spec of the same kind would repeat it
    simp only [Bool.not_eq_true, beq_eq_false_iff_ne]
    intro he
    refine List.nodup_iff_getElem?_ne_getElem?.1 hnd j i hj (by simpa using hi) ?_
    simp [List.getElem?_eq_getElem (Nat.lt_trans hj hi), List.getElem?_eq_getElem hi, he]

theorem indexOf_of_getElem (hv : h.validate = .ok ()) {i : Nat} {k : KeySpec} (hi : h.keySpecs[i]? = some k) :
    h.indexOf k.kind = some i := (indexOf_eq_some hv).2 ⟨k, hi, rfl⟩

/-- Looking a kind up by name and by index gives the same spec. -/
theorem findKeySpec_eq (kind : String) : h.findKeySpec kind = (h.indexOf kind).bind fun i => h.keySpecs[i]? := by
  unfold findKeySpec indexOf
  rw [List.find?_eq_bind_findIdx?_getElem?]

theorem findKeySpec_eq_some {kind : String} {k : KeySpec} :
    h.findKeySpec kind = some k ↔ ∃ i, h.indexOf kind = some i ∧ h.keySpecs[i]? = some k := by
  rw [findKeySpec_eq]
  simp [Option.bind_eq_some_iff]

theorem findParentKeySpec_eq {kind : String} {i : Nat} (hi : h.indexOf kind = some (i + 1)) :
    h.findParentKeySpec kind = h.keySpecs[i]? := by
  simp [findParentKeySpec, hi]

/-- A kind that stands after another has that one's spec before it. -/
theorem findParentKeySpec_of_index {kind : String} {i : Nat} {k : KeySpec} (hi : h.indexOf kind = some (i + 1))
    (hk : h.keySpecs[i + 1]? = some k) : ∃ p, h.keySpecs[i]? = some p ∧ h.findParentKeySpec kind = some p := by
  have hlt : i + 1 < h.keySpecs.length := (List.getElem?_eq_some_iff.1 hk).1
  have hp : h.keySpecs[i]? = some h.keySpecs[i] := List.getElem?_eq_getElem (by omega)
  exact ⟨h.keySpecs[i], hp, (findParentKeySpec_eq hi).trans hp⟩

/-- A kind of an accepted hierarchy that is not of root role has a spec before it. -/
theorem exists_findParentKeySpec (hv : h.validate = .ok ()) {kind : String} {k : KeySpec}
    (hk : h.findKeySpec kind = some k) (hr : k.role ≠ .root) :
    ∃ i p, h.indexOf kind = some (i + 1) ∧ h.keySpecs[i]? = some p ∧ h.findParentKeySpec kind = some p := by
  obtain ⟨i, hi, hki⟩ := findKeySpec_eq_some.1 hk
  cases i with
  | zero => exact absurd ((validate_root hv hki).2 rfl) hr
  | succ i =>
    obtain ⟨p, hp, hparent⟩ := findParentKeySpec_of_index hi hki
    exact ⟨i, p, hi, hp, hparent⟩

/-- The three lookups agree: each spec stands at the index of its kind, different kinds stand at different indices, and
the spec before a kind is the one at the index before, absent for the first kind and for one that is not there. -/
structure LookupsAgree (h : KeyHierarchy) : Prop where
  indexOf_injective : ∀ kind kind' i, h.indexOf kind = some i → h.indexOf kind' = some i → kind = kind'
  indexOf_kind : ∀ i k, h.keySpecs[i]? = some k → h.indexOf k.kind = some i
  findKeySpec_eq : ∀ kind, h.findKeySpec kind = (h.indexOf kind).bind fun i => h.keySpecs[i]?
  parent : ∀ kind i, h.indexOf kind = some i → 0 < i →
    ∃ p, h.keySpecs[i - 1]? = some p ∧ h.findParentKeySpec kind = some p
  no_parent : ∀ kind, (∀ i, h.indexOf kind = some i → i = 0) → h.findParentKeySpec kind = none

theorem lookupsAgree_of_validate (hv : h.validate = .ok ()) : h.LookupsAgree where
  indexOf_injective kind kind' i hk hk' := by
    obtain ⟨k, hi, rfl⟩ := (indexOf_eq_some hv).1 hk
    obtain ⟨k', hi', rfl⟩ := (indexOf_eq_some hv).1 hk'
    rw [hi] at hi'
    cases hi'
    rfl
  indexOf_kind _ _ hi := indexOf_of_getElem hv hi
  findKeySpec_eq := KeyHierarchy.findKeySpec_eq
  parent kind i hi hpos := by
    cases i with
    | zero => omega
    | succ i =>
      obtain ⟨k, hk, -⟩ := (indexOf_eq_some hv).1 hi
      exact findParentKeySpec_of_index hi hk
  no_parent kind hzero := by
    unfold findParentKeySpec
    split
    · rfl
    · rfl
    · rename_i i hi
      exact absurd (hzero _ hi) (Nat.succ_ne_zero i)

/-- **Validation accepts exactly the well-formed hierarchies**, and on those the lookups by kind agree. -/
theorem validate_exact (h : KeyHierarchy) :
    (h.validate = .ok () ↔ h.WellFormed) ∧ (h.validate = .ok () → h.LookupsAgree) :=
  ⟨⟨WellFormed.of_validate, WellFormed.validate⟩, lookupsAgree_of_validate⟩

/-- A root, a kek and a dek. -/
def threeKinds : KeyHierarchy where
  name := "default"
  keySpecs := [("root", .root), ("tenant", .kek), ("data", .dek)].map fun p =>
    { kind := p.1, role := p.2, algorithm := .aes256, labelsSpec := { requirements := [], allowUserLabels := true } }

theorem validate_exact_threeKinds : threeKinds.WellFormed ∧ threeKinds.LookupsAgree :=
  have hv : threeKinds.validate = .ok () := by decide
  ⟨(validate_exact threeKinds).1.1 hv, (validate_exact threeKinds).2 hv⟩

end KeyHierarchy

end Krypton
