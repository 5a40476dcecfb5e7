import Krypton.Lib.Walk
import Krypton.Deployment
import Krypton.Spec.Segments

/-!
# The path to the root

A kind that is bound in a segment gets its parent from the segment that its binding names, or from its own segment. The
validators look at one binding at a time: whether the named segment exists and has the kind before the bound one.
Together they guarantee a whole path.

* `SegmentOwner`, `parentPlace` — the places of a kind, and the step from a kind to the one before it;
* `parentPlace_hosted` — one step from a bound kind ends in a segment that has the kind before it;
* `parent_path_to_root` — as many steps as the index of the kind end at the root kind, in the root's own segment.
-/

namespace Krypton

open Lib

/-! ## Places -/

/-- Whose segment it is. -/
inductive SegmentOwner where
  | root
  | agent (seg : TopologySegment)

section
variable (h : KeyHierarchy) (t : Topology) (rootSeg : HierarchySegment) (rootBindings : KeyBindings)

def SegmentOwner.segment : SegmentOwner → HierarchySegment
  | .root => rootSeg
  | .agent seg => seg.segment

def SegmentOwner.bindings : SegmentOwner → KeyBindings
  | .root => rootBindings
  | .agent seg => seg.keyBindings

/-- The root, or an agent of the topology. -/
def SegmentOwner.In : SegmentOwner → Prop
  | .root => True
  | .agent seg => seg ∈ t.segments

/-- Who is meant by a provider's name. An agent of the name `root` comes before the root. -/
def providerOwner (name : String) : Option SegmentOwner :=
  match t.getSegmentByName name with
  | some seg => some (.agent seg)
  | none => if name = "root" then some .root else none

/-- From a kind to the one before it: in the segment of the binding's provider, or in the same one without a
provider. -/
def parentPlace (place : SegmentOwner × String) : Option (SegmentOwner × String) := do
  let parent ← h.findParentKeySpec place.2
  let binding ← (place.1.bindings rootBindings).get place.2
  match binding.parentKeyProvider with
  | none => some (place.1, parent.kind)
  | some name => (providerOwner t name).map fun owner => (owner, parent.kind)

/-- The segment has the kind, and a binding for it unless it is the root kind. -/
def SegmentOwner.Hosts (o : SegmentOwner) (kind : String) : Prop :=
  h.segmentContains (o.segment rootSeg) kind = true ∧
    (((o.bindings rootBindings).get kind).isSome = true ∨ roleOf h kind = some .root)

end

/-! ## One step -/

section
variable {h : KeyHierarchy} {t : Topology} {rootSeg : HierarchySegment} {rootBindings : KeyBindings} {o : SegmentOwner}
  {kind : String} {n : Nat}

/-- The provider's segment, as the validator looks it up. -/
theorem providerSegment_eq (name : String) :
    providerSegment t rootSeg name = (providerOwner t name).map fun o => o.segment rootSeg := by
  unfold providerSegment providerOwner
  cases t.getSegmentByName name with
  | some seg => rfl
  | none => dsimp only; split <;> rfl

theorem providerOwner_in {name : String} (hn : providerOwner t name = some o) : o.In t := by
  unfold providerOwner at hn
  split at hn
  · rename_i seg hget
    cases hn
    exact (getSegmentByName_mem hget).1
  · split at hn <;> cases hn
    trivial

/-- In an accepted segment the kinds are bound, but for the root kind. -/
theorem Covers.bound_or_root {seg : HierarchySegment} {bs : KeyBindings} {exemptRoot : Bool}
    (hc : Covers h seg bs exemptRoot) (hv : h.validate = .ok ()) (hk : h.segmentContains seg kind = true) :
    (bs.get kind).isSome = true ∨ roleOf h kind = some .root := by
  obtain ⟨sp, hsp⟩ := findKeySpec_of_contains hv hk
  by_cases hrole : sp.role = .root
  · exact .inr (by simp [roleOf, hsp, hrole])
  · obtain ⟨b, hb⟩ := hc.bound kind sp hk hsp fun _ => hrole
    exact .inl (by simp [hb])

/-- What the validators accept together. -/
structure PathsAccepted (h : KeyHierarchy) (t : Topology) (rootSeg : HierarchySegment)
    (rootBindings : KeyBindings) : Prop where
  hierarchy : h.validate = .ok ()
  root : RootSegment h rootSeg rootBindings
  topology : t.Accepted h rootSeg rootBindings

theorem pathsAccepted_of_validate (hh : h.validate = .ok ()) (hr : validateRootSegment h rootSeg rootBindings = .ok ())
    (ht : validateTopologyAgainstHierarchy h t rootSeg rootBindings = .ok ()) :
    PathsAccepted h t rootSeg rootBindings :=
  ⟨hh, rootSegment_of_validate hh hr, Topology.accepted_of_validate ht⟩

variable (ha : PathsAccepted h t rootSeg rootBindings)
include ha

theorem PathsAccepted.agent {seg : TopologySegment} (hseg : seg ∈ t.segments) :
    AgentSegment h seg.segment seg.keyBindings :=
  agentSegment_of_validate ha.hierarchy (ha.topology.agentSegment seg hseg)

theorem PathsAccepted.covers (ho : o.In t) :
    ∃ exemptRoot, Covers h (o.segment rootSeg) (o.bindings rootBindings) exemptRoot := by
  cases o with
  | root => exact ⟨true, ha.root.toCovers⟩
  | agent seg => exact ⟨false, (ha.agent ho).toCovers⟩

theorem PathsAccepted.provider (ho : o.In t) {b : KeyBinding} (hb : (o.bindings rootBindings).get kind = some b) :
    validateParentProvider h t rootSeg kind b = .ok () := by
  have hmem := KeyBindings.get_eq_some.1 hb
  cases o with
  | root => exact ha.topology.rootProviders _ hmem
  | agent seg => exact ha.topology.agentProviders seg ho _ hmem

theorem PathsAccepted.hosts (ho : o.In t) (hk : h.segmentContains (o.segment rootSeg) kind = true) :
    o.Hosts h rootSeg rootBindings kind := by
  obtain ⟨_, hcov⟩ := ha.covers ho
  exact ⟨hk, hcov.bound_or_root ha.hierarchy hk⟩

/-- Without a provider the kind before a bound one is in the same segment: a binding of the first kind of an agent's
segment has a provider, and before the first kind of the root's segment there is none. -/
theorem PathsAccepted.same_segment (ho : o.In t) {b : KeyBinding} (hb : (o.bindings rootBindings).get kind = some b)
    (hnone : b.parentKeyProvider = none) {p : KeySpec} (hp : h.findParentKeySpec kind = some p) :
    h.segmentContains (o.segment rootSeg) p.kind = true := by
  obtain ⟨_, hcov⟩ := ha.covers ho
  refine segmentContains_parent ha.hierarchy (hcov.inside kind b hb) ?_ hp
  rintro rfl
  cases o with
  | root =>
    rw [KeyHierarchy.findParentKeySpec, show h.indexOf ((SegmentOwner.root).segment rootSeg).startKind = some 0 from
      ha.root.first] at hp
    cases hp
  | agent seg =>
    obtain ⟨b', hb', hsome⟩ := (ha.agent ho).provider
    have heq : some b = some b' := hb.symm.trans hb'
    cases heq
    rw [hnone] at hsome
    cases hsome

/-- The provider of a bound kind has the kind before it. -/
theorem PathsAccepted.provider_contains (ho : o.In t) {b : KeyBinding}
    (hb : (o.bindings rootBindings).get kind = some b)
    {name : String} (hname : b.parentKeyProvider = some name) {p : KeySpec} (hp : h.findParentKeySpec kind = some p) :
    ∃ o', providerOwner t name = some o' ∧ o'.In t ∧ h.segmentContains (o'.segment rootSeg) p.kind = true := by
  have hv := ha.provider ho hb
  unfold validateParentProvider at hv
  rw [hname] at hv
  dsimp only at hv
  rw [providerSegment_eq] at hv
  cases howner : providerOwner t name with
  | none =>
    rw [howner] at hv
    cases hv
  | some o' =>
    have ho' := providerOwner_in howner
    obtain ⟨_, hcov⟩ := ha.covers ho'
    obtain ⟨⟨start, hstart⟩, stop, hstop⟩ := hcov.ends
    simp only [howner, Option.map_some, hp, hstart, hstop, check_eq_ok] at hv
    exact ⟨o', rfl, ho', hv⟩

/-- **One step up.** From a kind that is not the first, in a segment that has it, the step to the kind before it ends in
a segment that has that one. -/
theorem parentPlace_hosted (ho : o.In t) (hk : o.Hosts h rootSeg rootBindings kind)
    (hi : h.indexOf kind = some (n + 1)) :
    ∃ o' kind', parentPlace h t rootBindings (o, kind) = some (o', kind') ∧ o'.In t ∧
      o'.Hosts h rootSeg rootBindings kind' ∧ h.indexOf kind' = some n := by
  obtain ⟨sp, hsp, -⟩ := (KeyHierarchy.indexOf_eq_some ha.hierarchy).1 hi
  have hfind : h.findKeySpec kind = some sp := KeyHierarchy.findKeySpec_eq_some.2 ⟨_, hi, hsp⟩
  have hrole : sp.role ≠ .root := fun hr =>
      absurd ((KeyHierarchy.validate_root ha.hierarchy hsp).1 hr) (Nat.succ_ne_zero n)
  obtain ⟨i, p, hi', hpi, hp⟩ := KeyHierarchy.exists_findParentKeySpec ha.hierarchy hfind hrole
  obtain rfl : n = i := by simpa [hi] using hi'
  have hpn : h.indexOf p.kind = some n := KeyHierarchy.indexOf_of_getElem ha.hierarchy hpi
  obtain ⟨b, hb⟩ : ∃ b, (o.bindings rootBindings).get kind = some b := by
    rcases hk.2 with hb | hroot
    · exact Option.isSome_iff_exists.1 hb
    · simp [roleOf, hfind, hrole] at hroot
  cases hprov : b.parentKeyProvider with
  | none =>
    refine ⟨o, p.kind, ?_, ho, ha.hosts ho (ha.same_segment ho hb hprov hp), hpn⟩
    simp [parentPlace, hp, hb, hprov]
  | some name =>
    obtain ⟨o', howner, ho', hc⟩ := ha.provider_contains ho hb hprov hp
    refine ⟨o', p.kind, ?_, ho', ha.hosts ho' hc, hpn⟩
    simp [parentPlace, hp, hb, hprov, howner]

/-- Only the root's segment has the first kind. -/
theorem PathsAccepted.root_of_first (ho : o.In t) (hk : o.Hosts h rootSeg rootBindings kind)
    (hi : h.indexOf kind = some 0) : o = .root ∧ roleOf h kind = some .root := by
  obtain ⟨sp, hsp, -⟩ := (KeyHierarchy.indexOf_eq_some ha.hierarchy).1 hi
  have hfind : h.findKeySpec kind = some sp := KeyHierarchy.findKeySpec_eq_some.2 ⟨_, hi, hsp⟩
  have hrole : sp.role = .root := (KeyHierarchy.validate_root ha.hierarchy hsp).2 rfl
  refine ⟨?_, by simp [roleOf, hfind, hrole]⟩
  cases o with
  | root => rfl
  | agent seg => exact absurd hrole ((ha.agent ho).role kind sp hk.1 hfind)

end

/-! ## The whole path -/

/-- **The path to the root.** In an accepted hierarchy with its root segment and topology, the path from every bound
kind goes through segments that have the kind of each step, with a binding for it unless it is the root kind; after as
many steps as the index of the kind it is at the root kind, in the root's own segment. -/
theorem parent_path_to_root {h : KeyHierarchy} {t : Topology} {rootSeg : HierarchySegment} {rootBindings : KeyBindings}
    (hh : h.validate = .ok ()) (hr : validateRootSegment h rootSeg rootBindings = .ok ())
    (ht : validateTopologyAgainstHierarchy h t rootSeg rootBindings = .ok ()) {o : SegmentOwner} (ho : o.In t)
    {kind : String} {b : KeyBinding} (hb : (o.bindings rootBindings).get kind = some b) :
    ∃ i rootKind, h.indexOf kind = some i ∧
      (∀ n ≤ i, ∃ o' kind', walk (parentPlace h t rootBindings) n (o, kind) = some (o', kind') ∧
        h.indexOf kind' = some (i - n) ∧ o'.Hosts h rootSeg rootBindings kind') ∧
      walk (parentPlace h t rootBindings) i (o, kind) = some (.root, rootKind) ∧ roleOf h rootKind = some .root := by
  have ha := pathsAccepted_of_validate hh hr ht
  obtain ⟨_, hcov⟩ := ha.covers ho
  have hin := hcov.inside kind b hb
  obtain ⟨sp, hsp⟩ := findKeySpec_of_contains hh hin
  obtain ⟨i, hi, -⟩ := KeyHierarchy.findKeySpec_eq_some.1 hsp
  -- the invariant of the path: each place hosts its kind, which loses one index per step
  let P (n : Nat) (place : SegmentOwner × String) : Prop :=
    place.1.In t ∧ place.1.Hosts h rootSeg rootBindings place.2 ∧ h.indexOf place.2 = some n
  have hstep : ∀ n place, P (n + 1) place → ∃ place',
      parentPlace h t rootBindings place = some place' ∧ P n place' := by
    rintro n place ⟨hin, hosts, hidx⟩
    obtain ⟨o', kind', hstep, hP⟩ := parentPlace_hosted ha hin hosts hidx
    exact ⟨(o', kind'), hstep, hP⟩
  have hstart : P i (o, kind) := ⟨ho, ha.hosts ho hin, hi⟩
  have hpath := walk_down hstep hstart
  obtain ⟨⟨o', rootKind⟩, hend, ho', hosts, hlast⟩ := hpath i (Nat.le_refl i)
  rw [Nat.sub_self] at hlast
  obtain ⟨rfl, hrole⟩ := ha.root_of_first ho' hosts hlast
  refine ⟨i, rootKind, hi, fun n hn => ?_, hend, hrole⟩
  obtain ⟨⟨o', kind'⟩, hwalk, -, hosts, hidx⟩ := hpath n hn
  exact ⟨o', kind', hwalk, hidx, hosts⟩

theorem demoDek_path : demoHierarchy.validate = .ok () ∧ ∃ rootKind,
    walk (parentPlace demoHierarchy demoConfig.topology demoConfig.keyBindings) 3 (.agent demoEdge, "dek") =
      some (.root, rootKind) ∧ roleOf demoHierarchy rootKind = some .root := by
  have hh : demoHierarchy.validate = .ok () := by decide
  have hr : validateRootSegment demoHierarchy demoConfig.segment demoConfig.keyBindings = .ok () := by decide
  have ht : validateTopologyAgainstHierarchy demoHierarchy demoConfig.topology demoConfig.segment
      demoConfig.keyBindings = .ok () := by decide
  have ho : (SegmentOwner.agent demoEdge).In demoConfig.topology := List.mem_singleton_self demoEdge
  have hb : ((SegmentOwner.agent demoEdge).bindings demoConfig.keyBindings).get "dek" =
      some ⟨none, some demoCryptor, some demoVault, none⟩ := rfl
  obtain ⟨i, rootKind, hi, -, hend⟩ := parent_path_to_root hh hr ht ho hb
  have hidx : demoHierarchy.indexOf "dek" = some 3 := by decide
  obtain rfl : 3 = i := Option.some.inj (hidx.symm.trans hi)
  exact ⟨hh, rootKind, hend⟩

end Krypton
