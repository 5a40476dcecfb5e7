import Krypton.Spec.Hierarchy
import Krypton.Spec.Provider

/-!
# Topologies

Which node manages which part of the hierarchy: segments with their key bindings, and the validation of the root's and
of the agents' segments against the hierarchy (`internal/spec/topology.go`, `hierarchy_validation.go`).

A Go map of bindings is a list of entries with different keys; the list order stands for the order in which a loop
over the map meets them.

* `Topology.Accepted`, `Topology.accepted_of_validate` — what an accepted topology satisfies, by name.
-/

namespace Krypton

open Lib

/-- A contiguous range of kinds, both ends included. -/
structure HierarchySegment where
  startKind : String
  endKind : String
  deriving DecidableEq, Repr

structure KeyBinding where
  sealerSpec : Option SealerSpec
  cryptorSpec : Option CryptorSpec
  vaultSpec : Option VaultSpec
  /-- `ParentKeyProvider.AgentName`, where a provider is given. -/
  parentKeyProvider : Option String
  deriving DecidableEq, Repr

def KeyBinding.hasRemoteParent (kb : KeyBinding) : Bool :=
  match kb.parentKeyProvider with
  | none => false
  | some agentName => agentName ≠ ""

/-- Bindings by kind. -/
structure KeyBindings where
  entries : List (String × KeyBinding)
  nodup : (entries.map Prod.fst).Nodup

def KeyBindings.get (bs : KeyBindings) (kind : String) : Option KeyBinding :=
  (bs.entries.find? fun p => p.1 == kind).map Prod.snd

structure TopologySegment where
  name : String
  segment : HierarchySegment
  keyBindings : KeyBindings

structure Topology where
  segments : List TopologySegment

def Topology.getSegmentByName (t : Topology) (name : String) : Option TopologySegment :=
  t.segments.find? fun seg => seg.name == name

/-- Whether a kind lies in a segment. -/
def KeyHierarchy.segmentContains (h : KeyHierarchy) (seg : HierarchySegment) (kind : String) : Bool :=
  match h.indexOf seg.startKind, h.indexOf seg.endKind, h.indexOf kind with
  | some start, some stop, some idx => start ≤ idx && idx ≤ stop
  | _, _, _ => false

/-- Segments with different names are found by their names. -/
theorem getSegmentByName_of_mem {t : Topology} (hnd : (t.segments.map TopologySegment.name).Nodup)
    {seg : TopologySegment} (hseg : seg ∈ t.segments) : t.getSegmentByName seg.name = some seg := by
  unfold Topology.getSegmentByName
  cases hfind : t.segments.find? fun s => s.name == seg.name with
  | none => exact absurd (List.find?_eq_none.1 hfind seg hseg) (by simp)
  | some s =>
    have hs := List.find?_some hfind
    rw [List.inj_on_of_nodup_map hnd (List.mem_of_find?_eq_some hfind) hseg (by simpa using hs)]

theorem getSegmentByName_mem {t : Topology} {name : String} {seg : TopologySegment}
    (h : t.getSegmentByName name = some seg) : seg ∈ t.segments ∧ seg.name = name := by
  have hs := List.find?_some h
  exact ⟨List.mem_of_find?_eq_some h, by simpa using hs⟩

/-! ## Structural checks -/

def HierarchySegment.validate (hs : HierarchySegment) : Except Err Unit := do
  check (hs.startKind ≠ "") (.of .startKindEmpty)
  check (hs.endKind ≠ "") (.of .endKindEmpty)

def TopologySegment.validate (ts : TopologySegment) : Except Err Unit := do
  check (ts.name ≠ "") (.of .agentNameEmpty)
  ts.segment.validate
  check (!ts.keyBindings.entries.isEmpty) (.of .keyBindingsEmpty)

def Topology.validate (t : Topology) : Except Err Unit :=
  checkAll (fun p => p.2.validate.mapError (.context ("segment at index " ++ toString p.1)))
    ((List.range t.segments.length).zip t.segments)

/-! ## Checks against the hierarchy -/

section
variable (h : KeyHierarchy)

/-- The specs from index `start` to index `stop`, both included. -/
def KeyHierarchy.between (start stop : Nat) : List KeySpec := (h.keySpecs.drop start).take (stop + 1 - start)

/-- The kinds of a segment, with the errors for a segment that is none. -/
def segmentRange (seg : HierarchySegment) : Except Err (List KeySpec) :=
  match h.indexOf seg.startKind, h.indexOf seg.endKind with
  | none, _ => .error (.detail .segmentStartKindNotInHierarchy (quote seg.startKind))
  | some _, none => .error (.detail .segmentEndKindNotInHierarchy (quote seg.endKind))
  | some start, some stop =>
    if start > stop then .error (.of .segmentStartAfterEnd) else .ok (h.between start stop)

/-- The bindings cover exactly the range; with `exemptRoot` the root kind needs none. -/
def validateSegmentAgainstHierarchy (seg : HierarchySegment) (bindings : KeyBindings) (exemptRoot : Bool) :
    Except Err Unit := do
  let kindsInRange ← segmentRange h seg
  checkAll (fun ks => check ((exemptRoot && ks.role = .root) || (bindings.get ks.kind).isSome)
    (.detail .segmentBindingsMissing (quote ks.kind))) kindsInRange
  checkAll (fun p => check (kindsInRange.any fun ks => ks.kind == p.1)
    (.detail .segmentBindingsExtra (quote p.1))) bindings.entries

def roleOf (kind : String) : Option KeyRole := (h.findKeySpec kind).map KeySpec.role

/-- The kinds of a range that need one have a cryptor. -/
def validateCryptors (bindings : KeyBindings) (kinds : List KeySpec) : Except Err Unit :=
  checkAll (fun ks => check ((bindings.get ks.kind).any fun b => b.cryptorSpec.isSome)
    (.detail .bindingMissingCryptor (quote ks.kind))) kinds

def validateRootSegment (seg : HierarchySegment) (bindings : KeyBindings) : Except Err Unit := do
  validateSegmentAgainstHierarchy h seg bindings true
  check (h.indexOf seg.startKind = some 0) (.of .rootSegmentStartNotFirst)
  check (roleOf h seg.endKind ≠ some .tek) (.of .rootSegmentEndIsTek)
  let kindsInRange ← segmentRange h seg
  validateCryptors bindings (kindsInRange.filter fun ks => ks.role ≠ .root)

def validateAgentSegment (seg : HierarchySegment) (bindings : KeyBindings) : Except Err Unit := do
  validateSegmentAgainstHierarchy h seg bindings false
  check (roleOf h seg.startKind = some .tek) (.of .agentSegmentStartNotTek)
  check (seg.startKind = seg.endKind || roleOf h seg.endKind ≠ some .root) (.of .agentSegmentEndIsRoot)
  check (seg.startKind = seg.endKind || roleOf h seg.endKind ≠ some .tek) (.of .agentSegmentEndIsTek)
  let kindsInRange ← segmentRange h seg
  checkAll (fun ks => check (ks.role ≠ .root) (.of .agentSegmentContainsRoot)) kindsInRange
  match bindings.get seg.startKind with
  | none => .error (.detail .segmentBindingsMissing (quote seg.startKind))
  | some startBinding => do
    check startBinding.parentKeyProvider.isSome (.of .agentSegmentStartMissingParentKeyProvider)
    check startBinding.sealerSpec.isSome (.of .tekBindingMissingSealer)
    validateCryptors bindings kindsInRange

/-- The segment a provider name stands for: a topology segment, or the root for the name `root`. -/
def providerSegment (t : Topology) (rootSeg : HierarchySegment) (name : String) : Option HierarchySegment :=
  match t.getSegmentByName name with
  | some seg => some seg.segment
  | none => if name = "root" then some rootSeg else none

/-- One `ParentKeyProvider` resolves, and its segment contains the kind before the bound one. -/
def validateParentProvider (t : Topology) (rootSeg : HierarchySegment) (kind : String) (binding : KeyBinding) :
    Except Err Unit :=
  match binding.parentKeyProvider with
  | none => .ok ()
  | some providerName =>
    match providerSegment t rootSeg providerName with
    | none => .error (.detail .parentKeyProviderNotResolvable
        (quote providerName ++ " (referenced by key kind " ++ quote kind ++ ")"))
    | some providerSeg =>
      match h.findParentKeySpec kind with
      | none => .ok ()
      | some parent =>
        match h.indexOf providerSeg.startKind, h.indexOf providerSeg.endKind with
        | some _, some _ => check (h.segmentContains providerSeg parent.kind)
            (.detail .parentKeyProviderKeyNotInParentSegment
              ("parent key kind " ++ quote parent.kind ++ " not in segment " ++ quote providerName ++ " (" ++
                providerSeg.startKind ++ "→" ++ providerSeg.endKind ++ ")"))
        | _, _ => .ok ()

def validateBindingsParentProviders (t : Topology) (rootSeg : HierarchySegment) (bindings : KeyBindings) :
    Except Err Unit :=
  checkAll (fun p => validateParentProvider h t rootSeg p.1 p.2) bindings.entries

/-- No two segments share a name. -/
def validateSegmentNames : List String → List TopologySegment → Except Err Unit
  | _, [] => .ok ()
  | seen, seg :: segs => do
    check (!seen.contains seg.name) (.detail .topologyDuplicateSegmentName (quote seg.name))
    validateSegmentNames (seg.name :: seen) segs

theorem validateSegmentNames_ok : ∀ {seen : List String} {segs : List TopologySegment},
    validateSegmentNames seen segs = .ok () →
      (segs.map TopologySegment.name).Nodup ∧ ∀ seg ∈ segs, seg.name ∉ seen
  | _, [], _ => by simp
  | seen, seg :: segs, h => by
    simp only [validateSegmentNames, bind_unit_eq_ok, check_eq_ok, Bool.not_eq_eq_eq_not, Bool.not_true,
      List.contains_eq_mem, decide_eq_false_iff_not] at h
    obtain ⟨hseen, h⟩ := h
    obtain ⟨hnd, hns⟩ := validateSegmentNames_ok h
    refine ⟨?_, ?_⟩
    · rw [List.map_cons, List.nodup_cons]
      refine ⟨fun hm => ?_, hnd⟩
      obtain ⟨s, hs, he⟩ := List.mem_map.1 hm
      exact hns s hs (he ▸ List.mem_cons_self)
    · intro s hs
      rcases List.mem_cons.1 hs with rfl | hs
      · exact hseen
      · exact fun hm => hns s hs (List.mem_cons_of_mem _ hm)

/-- Every element of a list stands next to its index. -/
theorem mem_zip_range {α : Type} {l : List α} {a : α} (h : a ∈ l) : ∃ i, (i, a) ∈ (List.range l.length).zip l := by
  obtain ⟨i, hi, rfl⟩ := List.getElem_of_mem h
  refine ⟨i, List.mem_of_getElem? (i := i) ?_⟩
  simp [hi]

def validateTopologyAgainstHierarchy (t : Topology) (rootSeg : HierarchySegment) (rootBindings : KeyBindings) :
    Except Err Unit := do
  validateSegmentNames [] t.segments
  checkAll (fun p => (validateAgentSegment h p.2.segment p.2.keyBindings).mapError
    (.context ("segment " ++ quote p.2.name ++ " (index " ++ toString p.1 ++ ")")))
    ((List.range t.segments.length).zip t.segments)
  (validateBindingsParentProviders h t rootSeg rootBindings).mapError (.context "root bindings")
  checkAll (fun seg => (validateBindingsParentProviders h t rootSeg seg.keyBindings).mapError
    (.context ("segment " ++ quote seg.name))) t.segments

/-- What an accepted topology satisfies. -/
structure Topology.Accepted (t : Topology) (rootSeg : HierarchySegment) (rootBindings : KeyBindings) : Prop where
  names : (t.segments.map TopologySegment.name).Nodup
  agentSegment : ∀ seg ∈ t.segments, validateAgentSegment h seg.segment seg.keyBindings = .ok ()
  rootProviders : ∀ p ∈ rootBindings.entries, validateParentProvider h t rootSeg p.1 p.2 = .ok ()
  agentProviders : ∀ seg ∈ t.segments, ∀ p ∈ seg.keyBindings.entries,
    validateParentProvider h t rootSeg p.1 p.2 = .ok ()

end

theorem Topology.accepted_of_validate {h : KeyHierarchy} {t : Topology} {rootSeg : HierarchySegment}
    {rootBindings : KeyBindings} (ht : validateTopologyAgainstHierarchy h t rootSeg rootBindings = .ok ()) :
    t.Accepted h rootSeg rootBindings := by
  simp only [validateTopologyAgainstHierarchy, validateBindingsParentProviders, bind_unit_eq_ok, mapError_eq_ok,
    checkAll_eq_ok] at ht
  obtain ⟨hnames, hagents, hroot, hproviders⟩ := ht
  refine ⟨(validateSegmentNames_ok hnames).1, fun seg hseg => ?_, hroot, hproviders⟩
  obtain ⟨i, hi⟩ := mem_zip_range hseg
  exact hagents _ hi

end Krypton
