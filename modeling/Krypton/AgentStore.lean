import Krypton.Lib.Keyed
import Krypton.Store

/-!
# The table of agent registrations

One row per agent and instance (`pkg/store/sql/agent.go`, `internal/core/registration.go`). The instance is a UUID
column. A row is written by an upsert that keeps its creation time, its status is changed by an update with filters, and
it is deleted by age. Times are nanoseconds; every statement is given the time `clock.Now` returns to it.

* `get_register`, `get_updateStatus`, `get_deleteAgents` — what a statement does to the row of one agent.
-/

namespace Krypton

open Lib

inductive AgentRegistrationStatus where
  | registered | healthy | unhealthy | deregistered
  deriving DecidableEq, Repr

def AgentRegistrationStatus.text : AgentRegistrationStatus → String
  | .registered => "registered"
  | .healthy => "healthy"
  | .unhealthy => "unhealthy"
  | .deregistered => "de-registered"

structure AgentRegistration where
  name : String
  instanceID : String
  status : AgentRegistrationStatus
  lastHeartbeat : Int
  createdAt : Int
  updatedAt : Int
  deriving DecidableEq, Repr

/-- The primary key `(name, instance_id)`. -/
structure AgentKey where
  name : String
  instanceID : String
  deriving DecidableEq, Repr

def AgentRegistration.key (r : AgentRegistration) : AgentKey := ⟨r.name, r.instanceID⟩

abbrev agentSchema : Schema AgentRegistration AgentKey :=
  .primaryKey AgentRegistration.key fun k => Canonical k.instanceID

abbrev AgentTable : Type := Table agentSchema

/-! ## Statements -/

structure UpdateAgentStatusQuery where
  name : String
  instanceID : String
  fromStatus : List AgentRegistrationStatus
  /-- The empty text is `none`. -/
  toStatus : Option AgentRegistrationStatus
  heartbeatThreshold : Int

structure DeleteAgentQuery where
  /-- The empty text is `none`. -/
  status : Option AgentRegistrationStatus
  heartbeatThreshold : Int

/-- An error that wraps `ErrAgentQueryInvalid`. -/
def errAgentQueryInvalid (what : String) : Err := .plain (what ++ ": agent registration query invalid required field")

/-- `SET status, last_heartbeat, updated_at`. -/
def AgentRegistration.set (new r : AgentRegistration) : AgentRegistration :=
  { r with status := new.status, lastHeartbeat := new.lastHeartbeat, updatedAt := new.updatedAt }

/-- `SET status, updated_at`. -/
def AgentRegistration.setStatus (status : AgentRegistrationStatus) (now : Int) (r : AgentRegistration) :
    AgentRegistration :=
  { r with status, updatedAt := now }

@[simp] theorem AgentRegistration.key_set (new r : AgentRegistration) : (new.set r).key = r.key := rfl

@[simp] theorem AgentRegistration.key_setStatus (status : AgentRegistrationStatus) (now : Int) (r : AgentRegistration) :
    (r.setStatus status now).key = r.key := rfl

namespace AgentTable

/-- `Register`: the registration as it is stored, and the table with it. -/
def register (t : AgentTable) (r : AgentRegistration) (now : Int) : Except Err (AgentRegistration × AgentTable) :=
  match Uuid.parse r.instanceID with
  | none => .error errUuidSyntax
  | some i =>
    let row : AgentRegistration := { r with instanceID := i.text, createdAt := now, updatedAt := now }
    .ok ((t.get row.key).elim row (AgentRegistration.set row),
      t.upsert row i.canonical (AgentRegistration.set row) row.key_set)

/-- The `WHERE` clause of `UpdateStatus`, with the instance it filters by. -/
def UpdateAgentStatusQuery.selects (q : UpdateAgentStatusQuery) (instanceID : Option Uuid) (now : Int)
    (r : AgentRegistration) : Bool :=
  q.fromStatus.contains r.status && (q.name == "" || r.name == q.name) &&
    (instanceID.all fun i => r.instanceID == i.text) &&
    (q.heartbeatThreshold ≤ 0 || q.heartbeatThreshold < now - r.lastHeartbeat)

def updateStatus (t : AgentTable) (q : UpdateAgentStatusQuery) (now : Int) : Except Err AgentTable :=
  if q.fromStatus = [] then .error (errAgentQueryInvalid "missing from status")
  else match q.toStatus with
    | none => .error (errAgentQueryInvalid "missing to status")
    | some status =>
      match Uuid.parseNullable (if q.instanceID = "" then none else some q.instanceID) with
      | none => .error errUuidSyntax
      | some i => .ok (t.update (UpdateAgentStatusQuery.selects q i now) (.setStatus status now)
        (AgentRegistration.key_setStatus status now))

def deleteAgents (t : AgentTable) (q : DeleteAgentQuery) (now : Int) : Except Err AgentTable :=
  match q.status with
  | none => .error (errAgentQueryInvalid "missing status")
  | some status =>
    if q.heartbeatThreshold ≤ 0 then .error (errAgentQueryInvalid "invalid heartbeat threshold")
    else .ok (t.delete fun r => r.status == status && q.heartbeatThreshold < now - r.lastHeartbeat)

/-! ## The row of an agent -/

section
variable {t t' : AgentTable} {r r' : AgentRegistration} {now : Int} {k : AgentKey}

/-- A registration changes the row of its own agent, and keeps the creation time of one that is there. -/
theorem get_register (h : t.register r now = .ok (r', t')) :
    t'.get k =
      if r.name = k.name ∧ uuidIn r.instanceID = some k.instanceID then
        some ((t.get k).elim ⟨k.name, k.instanceID, r.status, r.lastHeartbeat, now, now⟩
          (AgentRegistration.set ⟨k.name, k.instanceID, r.status, r.lastHeartbeat, now, now⟩))
      else t.get k := by
  unfold register at h
  split at h
  · cases h
  · rename_i i hi
    cases h
    rw [Uuid.parse_eq_some] at hi
    refine (Table.get_upsert _ _ _ _).trans ?_
    obtain ⟨name, instanceID⟩ := k
    simp only [AgentRegistration.key, AgentKey.mk.injEq, hi, Option.some.injEq]
    split
    · rename_i hk
      obtain ⟨rfl, rfl⟩ := hk
      rfl
    · rfl

/-- A registration reaches the table exactly if the instance is a UUID. -/
theorem register_isOk : (∃ res, t.register r now = .ok res) ↔ (uuidIn r.instanceID).isSome = true := by
  unfold register
  cases hi : Uuid.parse r.instanceID with
  | none =>
    have hnone : uuidIn r.instanceID = none := by
      cases hp : uuidIn r.instanceID with
      | none => rfl
      | some s => rw [Uuid.parse_eq_some (u := ⟨s, uuidIn_idem hp⟩) |>.2 hp] at hi; cases hi
    simp [hnone]
  | some i => simp [Uuid.parse_eq_some.1 hi]

/-- What `UpdateStatus` does to the row of an agent. -/
theorem get_updateStatus {q : UpdateAgentStatusQuery} {status : AgentRegistrationStatus} {i : Option Uuid}
    (hto : q.toStatus = some status)
    (hi : Uuid.parseNullable (if q.instanceID = "" then none else some q.instanceID) = some i)
    (h : t.updateStatus q now = .ok t') :
    t'.get k = (t.get k).map fun r =>
      if UpdateAgentStatusQuery.selects q i now r then r.setStatus status now else r := by
  unfold updateStatus at h
  rw [hto, hi] at h
  dsimp only at h
  split at h
  · cases h
  · cases h
    exact Table.get_update _ _ _

theorem get_deleteAgents {status : AgentRegistrationStatus} {threshold : Int} (hpos : 0 < threshold)
    (h : t.deleteAgents ⟨some status, threshold⟩ now = .ok t') :
    t'.get k = (t.get k).filter fun r => !(r.status == status && threshold < now - r.lastHeartbeat) := by
  unfold deleteAgents at h
  dsimp only at h
  rw [if_neg (by omega)] at h
  cases h
  exact Table.get_delete _

end

end AgentTable

end Krypton
