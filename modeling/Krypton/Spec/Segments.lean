import Krypton.Spec.Topology
import Krypton.Lib.Assoc

/-!
# Accepted segments

What the validation of a segment against the hierarchy guarantees: the kinds of the segment are bound and only they are,
and each binding that needs a cryptor has one.

* `RootSegment`, `rootSegment_of_validate` — for the root's own segment;
* `AgentSegment`, `agentSegment_of_validate` — for the segment of an agent;
* `segmentContains_parent` — a segment has the kind before each of its kinds but the first.
-/

namespace Krypton

open Lib

theorem KeyBindings.get_eq_some {bs : KeyBindings} {kind : String} {binding : KeyBinding} :
    bs.get kind = some binding ↔ (kind, binding) ∈ bs.entries :=
  assoc_eq_some bs.nodup

section
variable {h : KeyHierarchy} {seg : HierarchySegment} {bs : KeyBindings} {kind : String}

/-! ## Ranges of kinds -/

theorem mem_between {start stop : Nat} {ks : KeySpec} :
    ks ∈ h.between start stop ↔ ∃ i, start ≤ i ∧ i ≤ stop ∧ h.keySpecs[i]? = some ks := by
  unfold KeyHierarchy.between
  rw [List.mem_iff_getElem?]
  simp only [List.getElem?_take, List.getElem?_drop]
  constructor
  · rintro ⟨j, hj⟩
    split at hj
    · exact ⟨start + j, by omega, by omega, hj⟩
    · cases hj
  · rintro ⟨i, h1, h2, hi⟩
    refine ⟨i - start, ?_⟩
    rw [if_pos (by omega), show start + (i - start) = i by omega]
    exact hi

theorem segmentRange_ok {kinds : List KeySpec} (hr : segmentRange h seg = .ok kinds) :
    ∃ start stop, h.indexOf seg.startKind = some start ∧ h.indexOf seg.endKind = some stop ∧
      kinds = h.between start stop := by
  unfold segmentRange at hr
  split at hr
  · cases hr
  · cases hr
  · rename_i start stop hstart hstop
    split at hr
    · cases hr
    · cases hr
      exact ⟨start, stop, hstart, hstop, rfl⟩

/-- The kinds of a segment are those of its range. -/
theorem segmentContains_iff (hv : h.validate = .ok ()) {kinds : List KeySpec} (hr : segmentRange h seg = .ok kinds) :
    h.segmentContains seg kind = true ↔ ∃ ks ∈ kinds, ks.kind = kind := by
  obtain ⟨start, stop, hstart, hstop, rfl⟩ := segmentRange_ok hr
  unfold KeyHierarchy.segmentContains
  rw [hstart, hstop]
  constructor
  · intro hc
    cases hi : h.indexOf kind with
    | none =>
      rw [hi] at hc
      cases hc
    | some i =>
      rw [hi] at hc
      simp only [Bool.and_eq_true, decide_eq_true_eq] at hc
      obtain ⟨ks, hks, hkind⟩ := (KeyHierarchy.indexOf_eq_some hv).1 hi
      exact ⟨ks, mem_between.2 ⟨i, hc.1, hc.2, hks⟩, hkind⟩
  · rintro ⟨ks, hks, rfl⟩
    obtain ⟨i, h1, h2, hi⟩ := mem_between.1 hks
    rw [KeyHierarchy.indexOf_of_getElem hv hi]
    simp [h1, h2]

/-- The first kind of a segment is the only one whose preceding kind may be outside. -/
theorem segmentContains_parent (hv : h.validate = .ok ()) (hc : h.segmentContains seg kind = true)
    (hne : kind ≠ seg.startKind) {p : KeySpec} (hp : h.findParentKeySpec kind = some p) :
    h.segmentContains seg p.kind = true := by
  unfold KeyHierarchy.segmentContains at hc ⊢
  split at hc
  · rename_i start stop idx hstart hstop hidx
    simp only [Bool.and_eq_true, decide_eq_true_eq] at hc
    cases idx with
    | zero => rw [KeyHierarchy.findParentKeySpec, hidx] at hp; cases hp
    | succ i =>
      have hi := hp
      rw [KeyHierarchy.findParentKeySpec_eq hidx] at hi
      rw [hstart, hstop, KeyHierarchy.indexOf_of_getElem hv hi]
      have hlt : start ≠ i + 1 := by
        rintro rfl
        obtain ⟨k, hk, rfl⟩ := (KeyHierarchy.indexOf_eq_some hv).1 hidx
        obtain ⟨k', hk', hk''⟩ := (KeyHierarchy.indexOf_eq_some hv).1 hstart
        rw [hk] at hk'
        cases hk'
        exact hne hk''
      simp only [Bool.and_eq_true, decide_eq_true_eq]
      omega
  · cases hc

/-- The kinds of a segment are kinds of the hierarchy. -/
theorem findKeySpec_of_contains (hv : h.validate = .ok ()) (hc : h.segmentContains seg kind = true) :
    ∃ sp, h.findKeySpec kind = some sp := by
  unfold KeyHierarchy.segmentContains at hc
  split at hc
  · rename_i _ _ idx _ _ hidx
    obtain ⟨ks, hks, -⟩ := (KeyHierarchy.indexOf_eq_some hv).1 hidx
    exact ⟨ks, KeyHierarchy.findKeySpec_eq_some.2 ⟨idx, hidx, hks⟩⟩
  · cases hc

/-- The spec before a kind is found under its kind. -/
theorem findKeySpec_of_parent (hv : h.validate = .ok ()) {sp : KeySpec} (hp : h.findParentKeySpec kind = some sp) :
    h.findKeySpec sp.kind = some sp := by
  unfold KeyHierarchy.findParentKeySpec at hp
  split at hp
  · cases hp
  · cases hp
  · exact KeyHierarchy.findKeySpec_eq_some.2 ⟨_, KeyHierarchy.indexOf_of_getElem hv hp, hp⟩

/-! ## Bindings -/

/-- The bindings are those of the kinds of the segment; with `exemptRoot` the root kind may have none. -/
structure Covers (h : KeyHierarchy) (seg : HierarchySegment) (bs : KeyBindings) (exemptRoot : Bool) : Prop where
  ends : (∃ start, h.indexOf seg.startKind = some start) ∧ ∃ stop, h.indexOf seg.endKind = some stop
  bound : ∀ kind sp, h.segmentContains seg kind = true → h.findKeySpec kind = some sp →
    (exemptRoot = true → sp.role ≠ .root) → ∃ b, bs.get kind = some b
  inside : ∀ kind b, bs.get kind = some b → h.segmentContains seg kind = true

/-- A spec in the range is the one its kind is looked up to. -/
theorem findKeySpec_of_mem_between (hv : h.validate = .ok ()) {start stop : Nat} {ks : KeySpec}
    (hks : ks ∈ h.between start stop) : h.findKeySpec ks.kind = some ks := by
  obtain ⟨i, -, -, hi⟩ := mem_between.1 hks
  exact KeyHierarchy.findKeySpec_eq_some.2 ⟨i, KeyHierarchy.indexOf_of_getElem hv hi, hi⟩

theorem covers_of_validate (hv : h.validate = .ok ()) {exemptRoot : Bool}
    (hs : validateSegmentAgainstHierarchy h seg bs exemptRoot = .ok ()) : Covers h seg bs exemptRoot := by
  unfold validateSegmentAgainstHierarchy at hs
  obtain ⟨kinds, hr, hs⟩ := bind_eq_ok.1 hs
  simp only [bind_unit_eq_ok, checkAll_eq_ok, check_eq_ok, Bool.or_eq_true, Bool.and_eq_true, decide_eq_true_eq,
    List.any_eq_true, beq_iff_eq] at hs
  have hcontains : ∀ kind, h.segmentContains seg kind = true ↔ ∃ ks ∈ kinds, ks.kind = kind :=
    fun _ => segmentContains_iff hv hr
  obtain ⟨start, stop, hstart, hstop, rfl⟩ := segmentRange_ok hr
  refine ⟨⟨⟨start, hstart⟩, stop, hstop⟩, fun kind sp hc hsp hroot => ?_, fun kind b hb => ?_⟩
  · obtain ⟨ks, hks, rfl⟩ := (hcontains kind).1 hc
    rw [findKeySpec_of_mem_between hv hks] at hsp
    cases hsp
    rcases hs.1 _ hks with ⟨hex, hrole⟩ | hb
    · exact absurd hrole (hroot hex)
    · exact Option.isSome_iff_exists.1 hb
  · exact (hcontains kind).2 (hs.2 _ (KeyBindings.get_eq_some.1 hb))

/-- The bindings that need a cryptor have one. -/
theorem cryptor_of_validate (hv : h.validate = .ok ()) {kinds : List KeySpec} (hr : segmentRange h seg = .ok kinds)
    {q : KeySpec → Bool} (hs : validateCryptors bs (kinds.filter q) = .ok ()) {b : KeyBinding} {sp : KeySpec}
    (hc : h.segmentContains seg kind = true) (hb : bs.get kind = some b) (hsp : h.findKeySpec kind = some sp)
    (hq : q sp = true) : b.cryptorSpec.isSome = true := by
  obtain ⟨ks, hks, rfl⟩ := (segmentContains_iff hv hr).1 hc
  obtain ⟨start, stop, -, -, rfl⟩ := segmentRange_ok hr
  rw [findKeySpec_of_mem_between hv hks] at hsp
  cases hsp
  simp only [validateCryptors, checkAll_eq_ok, check_eq_ok] at hs
  have := hs _ (List.mem_filter.2 ⟨hks, hq⟩)
  rwa [hb] at this

/-- An accepted segment of the root. -/
structure RootSegment (h : KeyHierarchy) (seg : HierarchySegment) (bs : KeyBindings) :
    Prop extends Covers h seg bs true where
  first : h.indexOf seg.startKind = some 0
  cryptor : ∀ kind b sp, bs.get kind = some b → h.findKeySpec kind = some sp → sp.role ≠ .root →
    b.cryptorSpec.isSome = true

theorem rootSegment_of_validate (hv : h.validate = .ok ()) (hs : validateRootSegment h seg bs = .ok ()) :
    RootSegment h seg bs := by
  simp only [validateRootSegment, bind_unit_eq_ok, check_eq_ok, decide_eq_true_eq] at hs
  obtain ⟨hcov, hfirst, -, hs⟩ := hs
  obtain ⟨kinds, hr, hs⟩ := bind_eq_ok.1 hs
  have hcov := covers_of_validate hv hcov
  refine ⟨hcov, hfirst, fun kind b sp hb hsp hrole => ?_⟩
  exact cryptor_of_validate hv hr hs (hcov.inside kind b hb) hb hsp (by simpa using hrole)

/-- An accepted segment of an agent. -/
structure AgentSegment (h : KeyHierarchy) (seg : HierarchySegment) (bs : KeyBindings) :
    Prop extends Covers h seg bs false where
  role : ∀ kind sp, h.segmentContains seg kind = true → h.findKeySpec kind = some sp → sp.role ≠ .root
  provider : ∃ b, bs.get seg.startKind = some b ∧ b.parentKeyProvider.isSome = true
  cryptor : ∀ kind b, bs.get kind = some b → b.cryptorSpec.isSome = true

theorem agentSegment_of_validate (hv : h.validate = .ok ()) (hs : validateAgentSegment h seg bs = .ok ()) :
    AgentSegment h seg bs := by
  simp only [validateAgentSegment, bind_unit_eq_ok] at hs
  obtain ⟨hcov, -, -, -, hs⟩ := hs
  obtain ⟨kinds, hr, hs⟩ := bind_eq_ok.1 hs
  simp only [bind_unit_eq_ok, checkAll_eq_ok, check_eq_ok, decide_eq_true_eq] at hs
  obtain ⟨hroles, hs⟩ := hs
  have hcov := covers_of_validate hv hcov
  cases hget : bs.get seg.startKind with
  | none =>
    rw [hget] at hs
    cases hs
  | some b =>
    rw [hget] at hs
    simp only [bind_unit_eq_ok, check_eq_ok] at hs
    obtain ⟨hprov, -, hcrypt⟩ := hs
    have hcrypt : validateCryptors bs (kinds.filter fun _ => true) = .ok () := by rwa [List.filter_true]
    refine ⟨hcov, fun kind sp hc hsp => ?_, ⟨b, hget, hprov⟩, fun kind b' hb' => ?_⟩
    · obtain ⟨ks, hks, rfl⟩ := (segmentContains_iff hv hr).1 hc
      obtain ⟨start, stop, -, -, rfl⟩ := segmentRange_ok hr
      rw [findKeySpec_of_mem_between hv hks] at hsp
      cases hsp
      exact hroles _ hks
    · have hc := hcov.inside kind b' hb'
      obtain ⟨ks, hks, hkind⟩ := (segmentContains_iff hv hr).1 hc
      obtain ⟨start, stop, -, -, rfl⟩ := segmentRange_ok hr
      exact cryptor_of_validate (q := fun _ => true) hv hr hcrypt hc hb' (hkind ▸ findKeySpec_of_mem_between hv hks) rfl

end

end Krypton
