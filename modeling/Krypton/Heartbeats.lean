import Krypton.AgentStore
import Krypton.Lib.Run
import Krypton.Registration
import Krypton.Status

/-!
# Registrations, heartbeats and the root's worker

Agents register with the root, send heartbeats and deregister (`pkg/api/v1/proto/agents/service.go`), each call being
one statement on the table of registrations. Every ten seconds a worker of the root (`cmd/root/main.go`) makes three
more statements: it marks agents without a recent heartbeat unhealthy, deregisters the unhealthy ones and deletes the
deregistered ones, by the age of their last heartbeat. Statements of different calls interleave freely and each may
fail; a heartbeat carries the time at which the service received it, which is before its statement runs.

* `step_get` — what one statement does to the row of one agent;
* `registration_own_events` — nothing but its own calls and the worker touches the row of an agent;
* `registration_after_heartbeat` — the status of an agent, read off what happened since its last heartbeat;
* `no_stale_registration` — a pass of the worker leaves no registration with an old heartbeat.
-/

namespace Krypton

open Lib

/-! ## The service -/

/-- A statement on the table: the error of one that fails, and the time the store puts into it. -/
structure StoreCall where
  fault : Option Err
  now : Int
  deriving DecidableEq, Repr

def StoreCall.exec {α : Type} (c : StoreCall) (result : Except Err α) : Except Err α :=
  match c.fault with
  | some e => .error e
  | none => result

def RootConfig.RegisterError.status (e : RootConfig.RegisterError) : Status :=
  errDetailsWithCode
    (match e with
      | .agentNameRequired | .instanceIDRequired => .invalidArgument
      | .notInTopology => .notFound
      | .noIdentities | .noParent | .noConnections => .failedPrecondition)
    e.message .abort

def validateInput (agentName instanceID : String) : Except RootConfig.RegisterError Unit := do
  check (agentName ≠ "") .agentNameRequired
  check (instanceID ≠ "") .instanceIDRequired

/-- The answer to a call whose statement gave `result`, and the table after it. -/
def answer {α : Type} (t : AgentTable) (failed : String) (result : Except Err α) (table : α → AgentTable) :
    Except Status Unit × AgentTable :=
  match result with
  | .error _ => (.error (errDetailsWithCode .internal failed .retry), t)
  | .ok a => (.ok (), table a)

namespace RootConfig

/-- `AgentService.Register`; what it answers with is `RootConfig.register`. -/
def registerAgent (cfg : RootConfig) (c : StoreCall) (agentName instanceID : String) (heartbeat : Int)
    (t : AgentTable) : Except Status Unit × AgentTable :=
  match cfg.register agentName instanceID with
  | .error e => (.error e.status, t)
  | .ok _ =>
    answer t "failed to register agent"
      (c.exec (t.register ⟨agentName, instanceID, .registered, heartbeat, 0, 0⟩ c.now)) Prod.snd

def sendHeartbeat (cfg : RootConfig) (c : StoreCall) (agentName instanceID : String) (heartbeat : Int)
    (t : AgentTable) : Except Status Unit × AgentTable :=
  match validateInput agentName instanceID with
  | .error e => (.error e.status, t)
  | .ok _ =>
    match cfg.topology.getSegmentByName agentName with
    | none => (.error RegisterError.notInTopology.status, t)
    | some _ =>
      answer t "failed to update heartbeat"
        (c.exec (t.register ⟨agentName, instanceID, .healthy, heartbeat, 0, 0⟩ c.now)) Prod.snd

end RootConfig

def deregisterAgent (c : StoreCall) (agentName instanceID : String) (t : AgentTable) :
    Except Status Unit × AgentTable :=
  match validateInput agentName instanceID with
  | .error e => (.error e.status, t)
  | .ok _ =>
    answer t "failed to update agent status to deregistered"
      (c.exec (t.updateStatus
        ⟨agentName, instanceID, [.registered, .healthy, .unhealthy], some .deregistered, 0⟩ c.now)) id

/-! ## The worker -/

/-- `time.Second`. -/
def second : Int := 1000000000

/-- The statements of the worker's task, in the order it makes them. -/
inductive SweepStatement where
  | markUnhealthy | markDeregistered | deleteDeregistered
  deriving DecidableEq, Repr

/-- The age of a heartbeat that a statement of the worker asks for. -/
def SweepStatement.threshold : SweepStatement → Int
  | .markUnhealthy => 30 * second
  | .markDeregistered => 90 * second
  | .deleteDeregistered => 120 * second

def SweepStatement.exec (now : Int) (t : AgentTable) : SweepStatement → Except Err AgentTable
  | .markUnhealthy =>
    t.updateStatus ⟨"", "", [.registered, .healthy], some .unhealthy, SweepStatement.markUnhealthy.threshold⟩ now
  | .markDeregistered =>
    t.updateStatus ⟨"", "", [.unhealthy], some .deregistered, SweepStatement.markDeregistered.threshold⟩ now
  | .deleteDeregistered => t.deleteAgents ⟨some .deregistered, SweepStatement.deleteDeregistered.threshold⟩ now

/-! ## Runs -/

inductive RegistryOp where
  | register (agentName instanceID : String) (heartbeat : Int)
  | heartbeat (agentName instanceID : String) (heartbeat : Int)
  | deregister (agentName instanceID : String)
  /-- A statement of the worker; an error of it does not keep the worker from the next one. -/
  | sweep (statement : SweepStatement)
  deriving DecidableEq, Repr

structure RegistryEvent where
  call : StoreCall
  op : RegistryOp
  deriving DecidableEq, Repr

/-- One statement, made by a call or by the worker. -/
def RootConfig.registryStep (cfg : RootConfig) (t : AgentTable) (ev : RegistryEvent) : AgentTable :=
  match ev.op with
  | .register agentName instanceID heartbeat => (cfg.registerAgent ev.call agentName instanceID heartbeat t).2
  | .heartbeat agentName instanceID heartbeat => (cfg.sendHeartbeat ev.call agentName instanceID heartbeat t).2
  | .deregister agentName instanceID => (deregisterAgent ev.call agentName instanceID t).2
  | .sweep statement =>
    match ev.call.exec (statement.exec ev.call.now t) with
    | .error _ => t
    | .ok t' => t'

namespace RegistryEvent

/-- The call names this agent. -/
def Names (k : AgentKey) (agentName instanceID : String) : Prop :=
  agentName = k.name ∧ uuidIn instanceID = some k.instanceID

instance (k : AgentKey) (agentName instanceID : String) : Decidable (Names k agentName instanceID) :=
  inferInstanceAs (Decidable (_ ∧ _))

/-- The event is a call that names this agent, or a statement of the worker. -/
def concerns (k : AgentKey) (ev : RegistryEvent) : Bool :=
  match ev.op with
  | .register agentName instanceID _ => Names k agentName instanceID
  | .heartbeat agentName instanceID _ => Names k agentName instanceID
  | .deregister agentName instanceID => Names k agentName instanceID
  | .sweep _ => true

/-- The status and the time of a heartbeat that the event records for an agent. -/
def beat (cfg : RootConfig) (k : AgentKey) (ev : RegistryEvent) : Option (AgentRegistrationStatus × Int) :=
  match ev.op with
  | .register agentName instanceID heartbeat =>
    if ev.call.fault = none ∧ Names k agentName instanceID ∧ (cfg.register agentName instanceID).isOk = true then
      some (.registered, heartbeat)
    else none
  | .heartbeat agentName instanceID heartbeat =>
    if ev.call.fault = none ∧ Names k agentName instanceID ∧ agentName ≠ "" ∧
        (cfg.topology.getSegmentByName agentName).isSome = true then
      some (.healthy, heartbeat)
    else none
  | _ => none

/-- The agent says goodbye. -/
def leaves (k : AgentKey) (ev : RegistryEvent) : Bool :=
  match ev.op with
  | .deregister agentName instanceID => ev.call.fault = none ∧ Names k agentName instanceID ∧ agentName ≠ ""
  | _ => false

/-- A statement of the worker that meets a heartbeat of the age it asks for. -/
def overdue (statement : SweepStatement) (heartbeat : Int) (ev : RegistryEvent) : Bool :=
  ev.call.fault.isNone && ev.op == .sweep statement && statement.threshold < ev.call.now - heartbeat

/-- The status of an agent after an event that records no heartbeat of it; `none` when its row is deleted. -/
def nextStatus (k : AgentKey) (heartbeat : Int) (ev : RegistryEvent) (status : AgentRegistrationStatus) :
    Option AgentRegistrationStatus :=
  if ev.leaves k then some .deregistered
  else if ev.overdue .markUnhealthy heartbeat && (status == .registered || status == .healthy) then some .unhealthy
  else if ev.overdue .markDeregistered heartbeat && status == .unhealthy then some .deregistered
  else if ev.overdue .deleteDeregistered heartbeat && status == .deregistered then none
  else some status

/-- What an event that records no heartbeat does to the row of an agent. -/
def demote (k : AgentKey) (ev : RegistryEvent) (r : AgentRegistration) : Option AgentRegistration :=
  (ev.nextStatus k r.lastHeartbeat r.status).map fun status =>
    if status = r.status then r else r.setStatus status ev.call.now

/-- What an event does to the row of an agent. -/
def act (cfg : RootConfig) (k : AgentKey) (row : Option AgentRegistration) (ev : RegistryEvent) :
    Option AgentRegistration :=
  match ev.beat cfg k with
  | some (status, heartbeat) =>
    let new : AgentRegistration := ⟨k.name, k.instanceID, status, heartbeat, ev.call.now, ev.call.now⟩
    some (row.elim new new.set)
  | none => row.bind (ev.demote k)

end RegistryEvent

/-! ## One statement, one agent -/

section
variable {cfg : RootConfig} {t : AgentTable} {c : StoreCall} {k : AgentKey} {n i : String} {heartbeat : Int}

theorem validateInput_eq_ok : validateInput n i = .ok () ↔ n ≠ "" ∧ i ≠ "" := by
  simp [validateInput]

/-- An instance that names an agent is no empty text. -/
theorem RegistryEvent.Names.instance_ne (h : Names k n i) : i ≠ "" := by
  rintro rfl
  have hempty : uuidIn "" = none := by decide
  rw [Names, hempty] at h
  cases h.2

/-- The statement behind `Register` and `SendHeartbeat`. -/
theorem get_answer_register {status : AgentRegistrationStatus} {failed : String} :
    (answer t failed (c.exec (t.register ⟨n, i, status, heartbeat, 0, 0⟩ c.now)) Prod.snd).2.get k =
      if c.fault = none ∧ RegistryEvent.Names k n i then
        some ((t.get k).elim ⟨k.name, k.instanceID, status, heartbeat, c.now, c.now⟩
          (AgentRegistration.set ⟨k.name, k.instanceID, status, heartbeat, c.now, c.now⟩))
      else t.get k := by
  unfold StoreCall.exec RegistryEvent.Names
  cases hc : c.fault with
  | some e => simp [answer]
  | none =>
    dsimp only
    cases hr : t.register ⟨n, i, status, heartbeat, 0, 0⟩ c.now with
    | error e =>
      have hnone : uuidIn i ≠ some k.instanceID := by
        intro hi
        have hok : ∃ res, t.register ⟨n, i, status, heartbeat, 0, 0⟩ c.now = .ok res :=
          AgentTable.register_isOk.2 (by simp [hi])
        obtain ⟨res, hres⟩ := hok
        rw [hr] at hres
        cases hres
      simp [answer, hnone]
    | ok res => simpa [answer] using AgentTable.get_register hr

/-- The statement behind `Deregister`. -/
theorem get_answer_deregister {failed : String} (hn : n ≠ "") (hi : i ≠ "") :
    (answer t failed (c.exec (t.updateStatus ⟨n, i, [.registered, .healthy, .unhealthy], some .deregistered, 0⟩ c.now))
      id).2.get k =
      (t.get k).map fun r =>
        if (c.fault = none ∧ RegistryEvent.Names k n i) ∧ r.status ≠ .deregistered then r.setStatus .deregistered c.now
        else r := by
  unfold StoreCall.exec
  cases hc : c.fault with
  | some e => simp [answer]
  | none =>
    cases hu : Uuid.parse i with
    | none =>
      have hnone : ¬ RegistryEvent.Names k n i := by
        intro h
        rw [Uuid.parse_eq_some (u := ⟨k.instanceID, uuidIn_idem h.2⟩) |>.2 h.2] at hu
        cases hu
      simp [AgentTable.updateStatus, Uuid.parseNullable, hi, hu, answer, hnone]
    | some u =>
      have hparse : Uuid.parseNullable (if i = "" then none else some i) = some (some u) := by
        rw [if_neg hi, Uuid.parseNullable, hu, Option.map_some]
      rw [Uuid.parse_eq_some] at hu
      cases hup : t.updateStatus ⟨n, i, [.registered, .healthy, .unhealthy], some .deregistered, 0⟩ c.now with
      | error e => simp [AgentTable.updateStatus, hparse] at hup
      | ok t' =>
        dsimp only [answer, id]
        rw [AgentTable.get_updateStatus rfl hparse hup]
        refine Option.map_congr fun r hr => ?_
        have hkey : r.key = k := (Table.get_eq_some.1 hr).2
        have hsel : AgentTable.UpdateAgentStatusQuery.selects
            ⟨n, i, [.registered, .healthy, .unhealthy], some .deregistered, 0⟩ (some u) c.now r = true ↔
            (True ∧ RegistryEvent.Names k n i) ∧ r.status ≠ .deregistered := by
          rw [← hkey]
          cases hst : r.status <;>
            simp [AgentTable.UpdateAgentStatusQuery.selects, RegistryEvent.Names, AgentRegistration.key, hst, hn, hu,
              eq_comm (a := n), eq_comm (a := u.text)]
        simp only [hsel]

theorem SweepStatement.threshold_pos (statement : SweepStatement) : 0 < statement.threshold := by
  cases statement <;> decide

/-- A statement of the worker on the row of an agent. -/
theorem get_sweep {statement : SweepStatement} {now : Int} {t' : AgentTable} (h : statement.exec now t = .ok t') :
    t'.get k = (t.get k).bind (RegistryEvent.demote k ⟨⟨none, now⟩, .sweep statement⟩) := by
  have hleaves : RegistryEvent.leaves k ⟨⟨none, now⟩, .sweep statement⟩ = false := by simp [RegistryEvent.leaves]
  have hpos : ¬ statement.threshold ≤ 0 := not_le.2 statement.threshold_pos
  cases statement with
  | markUnhealthy =>
    rw [AgentTable.get_updateStatus rfl rfl h]
    cases t.get k with
    | none => rfl
    | some r =>
      by_cases hover : SweepStatement.markUnhealthy.threshold < now - r.lastHeartbeat <;> cases hst : r.status <;>
        simp [RegistryEvent.demote, RegistryEvent.nextStatus, hleaves, RegistryEvent.overdue,
          AgentTable.UpdateAgentStatusQuery.selects, hst, hover, hpos]
  | markDeregistered =>
    rw [AgentTable.get_updateStatus rfl rfl h]
    cases t.get k with
    | none => rfl
    | some r =>
      by_cases hover : SweepStatement.markDeregistered.threshold < now - r.lastHeartbeat <;> cases hst : r.status <;>
        simp [RegistryEvent.demote, RegistryEvent.nextStatus, hleaves, RegistryEvent.overdue,
          AgentTable.UpdateAgentStatusQuery.selects, hst, hover, hpos]
  | deleteDeregistered =>
    rw [AgentTable.get_deleteAgents (SweepStatement.threshold_pos .deleteDeregistered) h]
    cases t.get k with
    | none => rfl
    | some r =>
      by_cases hover : SweepStatement.deleteDeregistered.threshold < now - r.lastHeartbeat <;> cases hst : r.status <;>
        simp [RegistryEvent.demote, RegistryEvent.nextStatus, hleaves, RegistryEvent.overdue, hst, hover, Option.filter]

/-- An event that neither is a goodbye of the agent nor comes from the worker takes nothing away from it. -/
theorem bind_demote_of_idle {ev : RegistryEvent} (hleaves : ev.leaves k = false)
    (hover : ∀ statement heartbeat, ev.overdue statement heartbeat = false) (row : Option AgentRegistration) :
    row.bind (ev.demote k) = row := by
  have hdemote : ev.demote k = some := by
    funext r
    simp [RegistryEvent.demote, RegistryEvent.nextStatus, hleaves, hover]
  rw [hdemote, Option.bind_fun_some]

theorem overdue_call {ev : RegistryEvent} (hsweep : ∀ statement, ev.op ≠ .sweep statement) (statement : SweepStatement)
    (heartbeat : Int) : ev.overdue statement heartbeat = false := by
  simp [RegistryEvent.overdue, hsweep statement]

theorem demote_deregister (hn : n ≠ "") (r : AgentRegistration) :
    RegistryEvent.demote k ⟨c, .deregister n i⟩ r =
      some (if (c.fault = none ∧ RegistryEvent.Names k n i) ∧ r.status ≠ .deregistered then
        r.setStatus .deregistered c.now else r) := by
  have hover := @overdue_call ⟨c, .deregister n i⟩ (by simp)
  have hleaves : RegistryEvent.leaves k ⟨c, .deregister n i⟩ = decide (c.fault = none ∧ RegistryEvent.Names k n i) := by
    simp [RegistryEvent.leaves, hn]
  by_cases hreach : c.fault = none ∧ RegistryEvent.Names k n i
  · by_cases hst : r.status = .deregistered
    · simp [RegistryEvent.demote, RegistryEvent.nextStatus, hleaves, hreach, hst]
    · simp [RegistryEvent.demote, RegistryEvent.nextStatus, hleaves, hreach, hst, Ne.symm hst]
  · simp [RegistryEvent.demote, RegistryEvent.nextStatus, hleaves, hreach, hover]

/-- **One statement, one agent.** -/
theorem step_get (cfg : RootConfig) (k : AgentKey) (t : AgentTable) (ev : RegistryEvent) :
    (cfg.registryStep t ev).get k = ev.act cfg k (t.get k) := by
  obtain ⟨c, op⟩ := ev
  unfold RootConfig.registryStep RegistryEvent.act RegistryEvent.beat
  cases op with
  | register n i heartbeat =>
    have hidle := @bind_demote_of_idle k ⟨c, .register n i heartbeat⟩ rfl (overdue_call (by simp))
    dsimp only
    unfold RootConfig.registerAgent
    cases hreg : cfg.register n i with
    | error e => simp [Except.isOk, Except.toBool, hidle]
    | ok ac =>
      dsimp only
      rw [get_answer_register]
      by_cases hreach : c.fault = none ∧ RegistryEvent.Names k n i
      · rw [if_pos hreach, if_pos ⟨hreach.1, hreach.2, rfl⟩]
      · rw [if_neg hreach, if_neg fun h => hreach ⟨h.1, h.2.1⟩]
        exact (hidle _).symm
  | heartbeat n i heartbeat =>
    have hidle := @bind_demote_of_idle k ⟨c, .heartbeat n i heartbeat⟩ rfl (overdue_call (by simp))
    dsimp only
    unfold RootConfig.sendHeartbeat
    cases hv : validateInput n i with
    | error e =>
      have hempty : ¬ (RegistryEvent.Names k n i ∧ n ≠ "") := by
        intro h
        rw [validateInput_eq_ok.2 ⟨h.2, h.1.instance_ne⟩] at hv
        cases hv
      rw [if_neg fun h => hempty ⟨h.2.1, h.2.2.1⟩]
      exact (hidle _).symm
    | ok u =>
      cases hseg : cfg.topology.getSegmentByName n with
      | none => simp [hidle]
      | some seg =>
        dsimp only
        rw [get_answer_register]
        by_cases hreach : c.fault = none ∧ RegistryEvent.Names k n i
        · rw [if_pos hreach, if_pos ⟨hreach.1, hreach.2, (validateInput_eq_ok.1 hv).1, rfl⟩]
        · rw [if_neg hreach, if_neg fun h => hreach ⟨h.1, h.2.1⟩]
          exact (hidle _).symm
  | deregister n i =>
    dsimp only
    unfold deregisterAgent
    cases hv : validateInput n i with
    | error e =>
      refine (bind_demote_of_idle ?_ (overdue_call (by simp)) _).symm
      simp only [RegistryEvent.leaves, decide_eq_false_iff_not]
      intro h
      rw [validateInput_eq_ok.2 ⟨h.2.2, h.2.1.instance_ne⟩] at hv
      cases hv
    | ok u =>
      obtain ⟨hn, hi⟩ := validateInput_eq_ok.1 hv
      dsimp only
      rw [get_answer_deregister hn hi]
      cases t.get k with
      | none => rfl
      | some r => exact (demote_deregister hn r).symm
  | sweep statement =>
    dsimp only
    unfold StoreCall.exec
    cases hc : c.fault with
    | some e => exact (bind_demote_of_idle rfl (by simp [RegistryEvent.overdue, hc]) _).symm
    | none =>
      have hevent : (⟨c, .sweep statement⟩ : RegistryEvent) = ⟨⟨none, c.now⟩, .sweep statement⟩ := by
        rw [← hc]
      rw [hevent]
      cases hex : statement.exec c.now t with
      | error e => cases statement <;> cases hex
      | ok t' => exact get_sweep hex

/-- The row of an agent after a run. -/
theorem run_get (cfg : RootConfig) (k : AgentKey) (t : AgentTable) (evs : List RegistryEvent) :
    (run cfg.registryStep t evs).get k = run (RegistryEvent.act cfg k) (t.get k) evs :=
  run_proj (fun t : AgentTable => t.get k) (step_get cfg k) t evs

/-- An event that does not concern an agent does nothing to its row. -/
theorem act_of_not_concerns {ev : RegistryEvent} (h : ev.concerns k = false) (row : Option AgentRegistration) :
    ev.act cfg k row = row := by
  obtain ⟨c, op⟩ := ev
  unfold RegistryEvent.concerns at h
  unfold RegistryEvent.act RegistryEvent.beat
  cases op with
  | register n i heartbeat =>
    rw [decide_eq_false_iff_not] at h
    simp only [h, false_and, and_false, if_false]
    exact bind_demote_of_idle rfl (overdue_call (by simp)) row
  | heartbeat n i heartbeat =>
    rw [decide_eq_false_iff_not] at h
    simp only [h, false_and, and_false, if_false]
    exact bind_demote_of_idle rfl (overdue_call (by simp)) row
  | deregister n i =>
    rw [decide_eq_false_iff_not] at h
    exact bind_demote_of_idle (by simp [RegistryEvent.leaves, h]) (overdue_call (by simp)) row
  | sweep statement => cases h

end

/-! ## Whole runs -/

/-- **Agents do not meet.** The registration of an agent depends on its own calls and on the worker: two runs in which
these are the same, from tables with the same row for it, leave the same row. -/
theorem registration_own_events (cfg : RootConfig) (k : AgentKey) (t t' : AgentTable) (ht : t.get k = t'.get k)
    (evs evs' : List RegistryEvent)
    (h : evs.filter (RegistryEvent.concerns k) = evs'.filter (RegistryEvent.concerns k)) :
    (run cfg.registryStep t evs).get k = (run cfg.registryStep t' evs').get k := by
  have hidle : ∀ row ev, RegistryEvent.concerns k ev = false → RegistryEvent.act cfg k row ev = row :=
    fun row ev hev => act_of_not_concerns hev row
  rw [run_get, run_get, ← run_filter hidle (t.get k) evs, ← run_filter hidle (t'.get k) evs', h, ht]

/-- A heartbeat of an instance of the agent `edge` of the small deployment. -/
def demoHeartbeat (instance_ : Nat) (time : Int) : RegistryEvent :=
  ⟨⟨none, time⟩, .heartbeat "edge" (demoUuid instance_).text time⟩

theorem demo_own_events :
    (run demoConfig.registryStep .empty [demoHeartbeat 1 0, demoHeartbeat 0 1,
      ⟨⟨none, 2⟩, .deregister "edge" (demoUuid 1).text⟩]).get
        ⟨"edge", (demoUuid 0).text⟩ =
      (run demoConfig.registryStep .empty [demoHeartbeat 0 1]).get ⟨"edge", (demoUuid 0).text⟩ :=
  registration_own_events demoConfig _ _ _ rfl _ _ (by decide)

/-- The status of an agent, from the status and the time of its last heartbeat and the events since then. An agent that
says goodbye is deregistered at once; one that is silent is marked unhealthy, deregistered and deleted by statements of
the worker that come in this order, each of which finds its heartbeat too old. -/
def fate (k : AgentKey) (status : AgentRegistrationStatus) (heartbeat : Int) (evs : List RegistryEvent) :
    Option AgentRegistrationStatus :=
  let leaves := RegistryEvent.leaves k
  let late := RegistryEvent.overdue .markUnhealthy heartbeat
  let lost := RegistryEvent.overdue .markDeregistered heartbeat
  let expired := RegistryEvent.overdue .deleteDeregistered heartbeat
  if inOrder [leaves, expired] evs || inOrder [late, lost, expired] evs then none
  else if inOrder [leaves] evs || inOrder [late, lost] evs then some .deregistered
  else if inOrder [late] evs then some .unhealthy
  else some status

section
variable {cfg : RootConfig} {k : AgentKey} {status : AgentRegistrationStatus} {heartbeat : Int} {ev : RegistryEvent}

/-- A statement of the worker is no call, and no other statement. -/
theorem overdue_eq_true {statement : SweepStatement} (h : ev.overdue statement heartbeat = true) :
    ev.leaves k = false ∧ ∀ other, other ≠ statement → ∀ heartbeat', ev.overdue other heartbeat' = false := by
  simp only [RegistryEvent.overdue, Bool.and_eq_true, beq_iff_eq] at h
  refine ⟨by simp [RegistryEvent.leaves, h.1.2], fun other hne heartbeat' => ?_⟩
  simp [RegistryEvent.overdue, h.1.2, Ne.symm hne]

theorem fate_concat (hstatus : status = .registered ∨ status = .healthy) (evs : List RegistryEvent) :
    fate k status heartbeat (evs ++ [ev]) = (fate k status heartbeat evs).bind (ev.nextStatus k heartbeat) := by
  have h₁ := inOrder_concat (RegistryEvent.leaves k) ev [] evs
  have h₂ := inOrder_concat (RegistryEvent.overdue .deleteDeregistered heartbeat) ev [RegistryEvent.leaves k] evs
  have h₃ := inOrder_concat (RegistryEvent.overdue .markUnhealthy heartbeat) ev [] evs
  have h₄ := inOrder_concat (RegistryEvent.overdue .markDeregistered heartbeat) ev
    [RegistryEvent.overdue .markUnhealthy heartbeat] evs
  have h₅ := inOrder_concat (RegistryEvent.overdue .deleteDeregistered heartbeat) ev
    [RegistryEvent.overdue .markUnhealthy heartbeat, RegistryEvent.overdue .markDeregistered heartbeat] evs
  simp only [List.nil_append, List.cons_append, inOrder_nil, Bool.and_true] at h₁ h₂ h₃ h₄ h₅
  simp only [fate, h₁, h₂, h₃, h₄, h₅]
  unfold RegistryEvent.nextStatus
  generalize inOrder [RegistryEvent.leaves k] evs = left
  generalize inOrder [RegistryEvent.leaves k, RegistryEvent.overdue .deleteDeregistered heartbeat] evs = gone
  generalize inOrder [RegistryEvent.overdue .markUnhealthy heartbeat] evs = late
  generalize inOrder [RegistryEvent.overdue .markUnhealthy heartbeat,
    RegistryEvent.overdue .markDeregistered heartbeat] evs = lost
  generalize inOrder [RegistryEvent.overdue .markUnhealthy heartbeat, RegistryEvent.overdue .markDeregistered heartbeat,
    RegistryEvent.overdue .deleteDeregistered heartbeat] evs = expired
  -- at most one of the four kinds applies to the last event
  by_cases hover : ∃ statement, ev.overdue statement heartbeat = true
  · obtain ⟨statement, hover⟩ := hover
    obtain ⟨hleaves, hother⟩ := overdue_eq_true (k := k) hover
    have hother := fun other hne => hother other hne heartbeat
    cases statement with
    | markUnhealthy =>
      rw [hleaves, hover, hother .markDeregistered (by decide), hother .deleteDeregistered (by decide)]
      revert left gone late lost expired
      rcases hstatus with rfl | rfl <;> decide
    | markDeregistered =>
      rw [hleaves, hover, hother .markUnhealthy (by decide), hother .deleteDeregistered (by decide)]
      revert left gone late lost expired
      rcases hstatus with rfl | rfl <;> decide
    | deleteDeregistered =>
      rw [hleaves, hover, hother .markUnhealthy (by decide), hother .markDeregistered (by decide)]
      revert left gone late lost expired
      rcases hstatus with rfl | rfl <;> decide
  · have hover : ∀ statement, ev.overdue statement heartbeat = false := by simpa using hover
    rw [hover, hover, hover]
    revert left gone late lost expired
    generalize ev.leaves k = leaves
    revert leaves
    rcases hstatus with rfl | rfl <;> decide

/-- What an agent's row says, its time of update apart. -/
def AgentRegistration.summary (r : AgentRegistration) : AgentRegistrationStatus × Int × Int :=
  (r.status, r.lastHeartbeat, r.createdAt)

theorem demote_summary (r : AgentRegistration) :
    (ev.demote k r).map AgentRegistration.summary =
      (ev.nextStatus k r.lastHeartbeat r.status).map fun status => (status, r.lastHeartbeat, r.createdAt) := by
  unfold RegistryEvent.demote
  rw [Option.map_map]
  refine Option.map_congr fun status _ => ?_
  dsimp only [Function.comp_apply]
  split
  · rename_i h
    rw [h, AgentRegistration.summary]
  · rfl

/-- The row of an agent after events that record no heartbeat of it. -/
theorem run_act_summary (hstatus : status = .registered ∨ status = .healthy) {r : AgentRegistration}
    (hr : r.status = status)
    (hb : r.lastHeartbeat = heartbeat) {evs : List RegistryEvent} (hevs : ∀ ev ∈ evs, ev.beat cfg k = none) :
    (run (RegistryEvent.act cfg k) (some r) evs).map AgentRegistration.summary =
      (fate k status heartbeat evs).map fun status => (status, heartbeat, r.createdAt) := by
  induction evs using List.reverseRecOn with
  | nil => simp [fate, inOrder, AgentRegistration.summary, hr, hb]
  | append_singleton evs ev ih =>
    have ih := ih fun ev' hev' => hevs ev' (List.mem_append_left _ hev')
    have hbeat : ev.beat cfg k = none := hevs ev (List.mem_append_right _ List.mem_cons_self)
    rw [run_append, run_cons, run_nil, fate_concat hstatus, RegistryEvent.act, hbeat]
    cases hrow : run (RegistryEvent.act cfg k) (some r) evs with
    | none =>
      rw [hrow, Option.map_none, eq_comm, Option.map_eq_none_iff] at ih
      rw [ih]
      rfl
    | some r' =>
      rw [hrow, Option.map_some] at ih
      obtain ⟨status', hfate, hsummary⟩ := Option.map_eq_some_iff.1 ih.symm
      simp only [AgentRegistration.summary, Prod.mk.injEq] at hsummary
      obtain ⟨rfl, rfl, hcreated⟩ := hsummary
      rw [hfate, Option.bind_some, hcreated]
      exact demote_summary r'

end

/-- **The status of an agent is read off its last heartbeat.** Whatever happened before the last registration or
heartbeat of an agent is forgotten, but for the creation time of a row that was there; what happened since decides its
status. -/
theorem registration_after_heartbeat (cfg : RootConfig) (k : AgentKey) (t : AgentTable)
    (earlier later : List RegistryEvent) (ev : RegistryEvent) (status : AgentRegistrationStatus) (heartbeat : Int)
    (hev : ev.beat cfg k = some (status, heartbeat)) (hlater : ∀ ev ∈ later, ev.beat cfg k = none) :
    ((run cfg.registryStep t (earlier ++ ev :: later)).get k).map (fun r => (r.status, r.lastHeartbeat, r.createdAt)) =
      (fate k status heartbeat later).map fun status =>
        (status, heartbeat, ((run cfg.registryStep t earlier).get k).elim ev.call.now AgentRegistration.createdAt) := by
  have hstatus : status = .registered ∨ status = .healthy := by
    unfold RegistryEvent.beat at hev
    split at hev
    · split at hev <;> cases hev
      exact .inl rfl
    · split at hev <;> cases hev
      exact .inr rfl
    · cases hev
  rw [run_append, run_cons, run_get, step_get, RegistryEvent.act, hev]
  cases (run cfg.registryStep t earlier).get k with
  | none => exact run_act_summary hstatus rfl rfl hlater
  | some r => exact run_act_summary hstatus rfl rfl hlater

/-- An agent that deregistered, sent one more heartbeat and then fell silent. -/
theorem demo_after_heartbeat :
    ((run demoConfig.registryStep .empty
      ([demoHeartbeat 0 1, ⟨⟨none, 2⟩, .deregister "edge" (demoUuid 0).text⟩] ++ demoHeartbeat 0 3 ::
        [⟨⟨none, 31 * second⟩, .sweep .markUnhealthy⟩, ⟨⟨none, 31 * second⟩, .sweep .markDeregistered⟩])).get
        ⟨"edge", (demoUuid 0).text⟩).map (fun r => (r.status, r.lastHeartbeat, r.createdAt)) =
      some (.unhealthy, 3, 1) :=
  (registration_after_heartbeat demoConfig _ _ _ _ _ .healthy 3 (by decide) (by decide)).trans (by decide)

/-! ## Passes of the worker -/

/-- A statement of a pass of the worker that begins at a time or later. -/
def RegistryEvent.passes (statement : SweepStatement) (time : Int) (ev : RegistryEvent) : Bool :=
  ev.call.fault.isNone && ev.op == .sweep statement && time ≤ ev.call.now

/-- How far an agent has gone from being there. -/
def AgentRegistrationStatus.rank : AgentRegistrationStatus → Nat
  | .registered | .healthy => 0
  | .unhealthy => 1
  | .deregistered => 2

/-- The statements of the worker lead from one rank to the next. -/
def SweepStatement.rank : SweepStatement → Nat
  | .markUnhealthy => 0
  | .markDeregistered => 1
  | .deleteDeregistered => 2

section
variable {cfg : RootConfig} {k : AgentKey} {heartbeat time : Int} {ev : RegistryEvent}

/-- Nothing but a heartbeat brings an agent back. -/
theorem rank_le_of_nextStatus {status status' : AgentRegistrationStatus}
    (h : ev.nextStatus k heartbeat status = some status') : status.rank ≤ status'.rank := by
  unfold RegistryEvent.nextStatus at h
  split at h
  · cases h
    cases status <;> decide
  · split at h
    · rename_i hif
      cases h
      cases status <;> simp_all [AgentRegistrationStatus.rank]
    · split at h
      · cases h
        cases status <;> decide
      · split at h <;> cases h
        exact le_rfl

/-- A statement of the worker moves an agent with an old heartbeat on. -/
theorem rank_lt_of_overdue {statement : SweepStatement} {status status' : AgentRegistrationStatus}
    (hover : ev.overdue statement heartbeat = true) (hrank : statement.rank ≤ status.rank)
    (h : ev.nextStatus k heartbeat status = some status') : statement.rank < status'.rank := by
  obtain ⟨hleaves, hother⟩ := overdue_eq_true (k := k) hover
  have hother := fun other hne => hother other hne heartbeat
  unfold RegistryEvent.nextStatus at h
  cases statement with
  | markUnhealthy =>
    rw [hleaves, hover, hother .markDeregistered (by decide), hother .deleteDeregistered (by decide)] at h
    cases status <;> cases h <;> decide
  | markDeregistered =>
    rw [hleaves, hover, hother .markUnhealthy (by decide), hother .deleteDeregistered (by decide)] at h
    cases status <;> cases h <;> first | decide | exact absurd hrank (by decide)
  | deleteDeregistered =>
    rw [hleaves, hover, hother .markUnhealthy (by decide), hother .markDeregistered (by decide)] at h
    cases status <;> cases h <;> exact absurd hrank (by decide)

/-- The row, if it is there, has a recent heartbeat or has at least a rank. -/
def RecentOr (time : Int) (n : Nat) (row : Option AgentRegistration) : Prop :=
  ∀ r, row = some r → time ≤ r.lastHeartbeat ∨ n ≤ r.status.rank

theorem recentOr_act (hbeat : ∀ status heartbeat, ev.beat cfg k = some (status, heartbeat) → time ≤ heartbeat)
    {n m : Nat} (hmove : ∀ heartbeat status status', heartbeat < time → n ≤ status.rank →
      ev.nextStatus k heartbeat status = some status' → m ≤ status'.rank) {row : Option AgentRegistration}
    (h : RecentOr time n row) : RecentOr time m (ev.act cfg k row) := by
  intro r hr
  unfold RegistryEvent.act at hr
  cases hb : ev.beat cfg k with
  | some b =>
    rw [hb] at hr
    have hrecent := hbeat b.1 b.2 hb
    cases row <;> cases hr <;> exact .inl hrecent
  | none =>
    rw [hb] at hr
    obtain ⟨r₀, rfl, hdemote⟩ := Option.bind_eq_some_iff.1 hr
    obtain ⟨status, hnext, rfl⟩ := Option.map_eq_some_iff.1 hdemote
    have hsame : (if status = r₀.status then r₀ else r₀.setStatus status ev.call.now).lastHeartbeat = r₀.lastHeartbeat ∧
        (if status = r₀.status then r₀ else r₀.setStatus status ev.call.now).status = status := by
      split
      · rename_i hst
        exact ⟨rfl, hst.symm⟩
      · exact ⟨rfl, rfl⟩
    rw [hsame.1, hsame.2]
    rcases h r₀ rfl with hrecent | hrank
    · exact .inl hrecent
    · by_cases hold : r₀.lastHeartbeat < time
      · exact .inr (hmove _ _ _ hold hrank hnext)
      · exact .inl (by omega)

end

/-- **No stale registration survives.** Once the three statements of a pass that began at a time have run, whatever
calls came in between, no registration is left whose last heartbeat is more than 120 seconds older than that time. -/
theorem no_stale_registration (cfg : RootConfig) (t : AgentTable) (time : Int) (evs : List RegistryEvent)
    (hpass : inOrder [RegistryEvent.passes .markUnhealthy time, RegistryEvent.passes .markDeregistered time,
      RegistryEvent.passes .deleteDeregistered time] evs = true)
    (hbeats : ∀ ev ∈ evs, ∀ k status heartbeat,
      ev.beat cfg k = some (status, heartbeat) → time - 120 * second ≤ heartbeat) :
    ∀ r ∈ (run cfg.registryStep t evs).rows, time - 120 * second ≤ r.lastHeartbeat := by
  intro r hr
  rw [Table.mem_rows_iff, run_get] at hr
  have hup : ∀ statement : SweepStatement, ∀ row ev,
      (∀ status heartbeat, ev.beat cfg r.key = some (status, heartbeat) → time - 120 * second ≤ heartbeat) →
      RecentOr (time - 120 * second) statement.rank row → RegistryEvent.passes statement time ev = true →
      RecentOr (time - 120 * second) (statement.rank + 1) (ev.act cfg r.key row) := by
    intro statement row ev hbeat hrow hev
    refine recentOr_act hbeat (fun heartbeat status status' hold hrank hnext => ?_) hrow
    have hover : ev.overdue statement heartbeat = true := by
      simp only [RegistryEvent.passes, Bool.and_eq_true, decide_eq_true_eq] at hev
      have hthreshold : statement.threshold ≤ 120 * second := by cases statement <;> decide
      simp only [RegistryEvent.overdue, hev.1.1, hev.1.2, Bool.true_and, decide_eq_true_eq]
      omega
    exact rank_lt_of_overdue hover hrank hnext
  have hclimbs : Climbs (RegistryEvent.act cfg r.key)
      (fun ev => ∀ status heartbeat, ev.beat cfg r.key = some (status, heartbeat) → time - 120 * second ≤ heartbeat)
      (RecentOr (time - 120 * second)) 0 [RegistryEvent.passes .markUnhealthy time,
        RegistryEvent.passes .markDeregistered time, RegistryEvent.passes .deleteDeregistered time] :=
    ⟨hup .markUnhealthy, hup .markDeregistered, hup .deleteDeregistered, trivial⟩
  have htop := run_inOrder
    (fun n row ev hbeat hrow =>
      recentOr_act hbeat (fun _ _ _ _ hrank hnext => le_trans hrank (rank_le_of_nextStatus hnext)) hrow)
    hclimbs (fun ev hev status heartbeat => hbeats ev hev r.key status heartbeat)
    (fun _ _ => .inr (Nat.zero_le _)) hpass r hr
  have hbound : r.status.rank < 3 := by cases r.status <;> decide
  rcases htop with hrecent | hrank
  · exact hrecent
  · exact absurd hrank (not_le.2 hbound)

theorem demo_no_stale_registration :
    (run demoConfig.registryStep .empty [demoHeartbeat 0 0, demoHeartbeat 1 (90 * second)]).rows.any
        (fun r => decide (r.lastHeartbeat < 200 * second - 120 * second)) = true ∧
      ∀ r ∈ (run demoConfig.registryStep
        (run demoConfig.registryStep .empty [demoHeartbeat 0 0, demoHeartbeat 1 (90 * second)])
        [⟨⟨none, 200 * second⟩, .sweep .markUnhealthy⟩, ⟨⟨none, 200 * second⟩, .sweep .markDeregistered⟩,
          demoHeartbeat 0 (201 * second), ⟨⟨none, 202 * second⟩, .sweep .deleteDeregistered⟩]).rows,
        200 * second - 120 * second ≤ r.lastHeartbeat := by
  refine ⟨by decide, no_stale_registration demoConfig _ _ _ (by decide) ?_⟩
  intro ev hev k status heartbeat hbeat
  simp only [List.mem_cons, List.not_mem_nil, or_false] at hev
  rcases hev with rfl | rfl | rfl | rfl
  · cases hbeat
  · cases hbeat
  · simp only [RegistryEvent.beat, demoHeartbeat] at hbeat
    split at hbeat <;> cases hbeat
    decide
  · cases hbeat

end Krypton
