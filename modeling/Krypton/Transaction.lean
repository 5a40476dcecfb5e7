import Krypton.Lib.Tx
import Krypton.KeyProcessor.Manager

/-!
# Transactions

A root operation runs its statements in one serializable transaction (`transactor.go`): they see the database as the
transaction found it and its own changes. An error, or a failed commit, leaves the database as it was; what was written
to a vault in between stays.

Every call that can fail is a `Site`. An `Env` says for one operation which of its calls fail, what its remote calls
answer, and what it reads from the clock and the random source, so a theorem about every `Env` is about every pattern of
failures.
-/

namespace Krypton

open Lib

/-! ## Jobs -/

/-- The lifecycle actions that run one task per key of a layer. -/
inductive ActionType where
  | activate | suspend | deactivate
  deriving DecidableEq, Repr

/-- `HandlerConfig.toState`. -/
def ActionType.toState : ActionType → KeyLifeCycleState
  | .activate => .active
  | .suspend => .suspended
  | .deactivate => .deactivated

structure KeyIdentifier where
  id : String
  tenantID : String
  deriving DecidableEq, Repr

/-- A job with its data: an announced key, or the keys of one layer. -/
inductive Job where
  | announce (key : Key)
  | layer (action : ActionType) (identifiers : List KeyIdentifier)
  deriving DecidableEq, Repr

/-- The jobs of a group, in the order they are to run. -/
abbrev JobGroup : Type := List Job

/-! ## Surroundings of one operation -/

/-- The calls of an operation that can fail. -/
inductive Site where
  | «begin» | commit
  | validateTenant | getTenant | upsertTenant
  | validateKey | ensureKey | loadKey
  | createKey | getKeyByName | getKeyByID | updateKeyStates | keyTree
  | updateKey (id : String)
  | listKeyVersions | updateKeyVersion | listParentKeyVersions | createKeyVersion
  | markFailed | markCompleted
  | generate | importKey | importKeyReply
  | exportSpec | importSpec | importSpecReply | latestVersion
  | prepare
  deriving DecidableEq, Repr

inductive RpcSite where
  | upsertTenant | upsertKey | upsertKeyVersion
  deriving DecidableEq, Repr

/-- What a remote call answers: `terminal` is an `InvalidArgument` or `FailedPrecondition` status, `retryable` what
`proto.Retryable` says of the error. -/
inductive RpcResult where
  | ok
  | error (terminal retryable : Bool)
  deriving DecidableEq, Repr

structure Env where
  fails : Site → Bool
  rpc : RpcSite → RpcResult
  now : Int
  uuid : Uuid
  draw : SecretDraw

/-- What the root keeps: its database, the vaults and the provider specs. -/
structure World where
  db : DB
  vault : Vault
  specs : SpecStore

/-- The inside of a transaction. -/
structure Session where
  /-- The database as other connections see it. -/
  committed : DB
  db : DB
  vault : Vault
  specs : SpecStore
  /-- Job groups handed to orbital so far. -/
  prepared : List JobGroup

/-- A transaction that has just begun. -/
def World.session (w : World) : Session := ⟨w.db, w.db, w.vault, w.specs, []⟩

abbrev Step (α : Type) : Type := Tx Session Err α

def errDatabase : Err := .plain "driver: bad connection"

section
variable (e : Env)

/-- A statement that reads. -/
def query {α : Type} (site : Site) (f : DB → Except Err α) : Step α := fun s =>
  if e.fails site then (.error errDatabase, s) else (f s.db, s)

/-- A statement that writes. -/
def exec (site : Site) (f : DB → Except Err DB) : Step Unit := fun s =>
  if e.fails site then (.error errDatabase, s)
  else match f s.db with
    | .ok db => (.ok (), { s with db })
    | .error err => (.error err, s)

/-- Hand a job group to orbital. -/
def prepareJobGroup (group : JobGroup) : Step Unit := fun s =>
  if e.fails .prepare then (.error (.plain "orbital: failed to prepare job group"), s)
  else (.ok (), { s with prepared := s.prepared ++ [group] })

/-- Run `fn` in a transaction: the result, the job groups it leaves to orbital and the world after it. -/
def transaction {ε α : Type} (err : Err → ε) (fn : Tx Session ε α) (w : World) : Except ε α × List JobGroup × World :=
  if e.fails .begin then (.error (err (.context "begin transaction" errDatabase)), [], w)
  else match fn w.session with
    | (.error er, s) => (.error er, [], ⟨w.db, s.vault, s.specs⟩)
    | (.ok a, s) =>
      if e.fails .commit then (.error (err (.context "commit transaction" errDatabase)), [], ⟨w.db, s.vault, s.specs⟩)
      else (.ok a, s.prepared, ⟨s.db, s.vault, s.specs⟩)

end

/-! ## What the statements do -/

section
variable {e : Env} {s : Session}

/-- A read leaves everything alone; its value is that of the database the transaction sees. -/
theorem ends_query {α : Type} {site : Site} {f : DB → Except Err α} :
    (query e site f).Ends s fun r s' => s' = s ∧ (r = f s.db ∨ r = .error errDatabase) := by
  unfold Tx.Ends query
  split
  · exact ⟨rfl, .inr rfl⟩
  · exact ⟨rfl, .inl rfl⟩

theorem eq_of_query {α : Type} {x : Except Err α} {a : α} (h : Except.ok a = x ∨ Except.ok a = .error errDatabase) :
    x = .ok a := by
  rcases h with h | h
  · exact h.symm
  · cases h

/-- A read that does not fail. -/
theorem query_of_ok {α : Type} {site : Site} {f : DB → Except Err α} {a : α} (h : e.fails site = false)
    (hf : f s.db = .ok a) : query e site f s = (.ok a, s) := by
  simp [query, h, hf]

/-- A write that succeeds changes the transaction's database as its statement says; one that fails changes nothing. -/
theorem ends_exec {site : Site} {f : DB → Except Err DB} :
    (exec e site f).Ends s fun r s' =>
      (∃ db, r = .ok () ∧ f s.db = .ok db ∧ s' = { s with db }) ∨
        (∃ err, r = .error err ∧ s' = s ∧ (f s.db = .error err ∨ err = errDatabase)) := by
  unfold Tx.Ends exec
  split
  · exact .inr ⟨_, rfl, rfl, .inr rfl⟩
  · split
    · rename_i db hf
      exact .inl ⟨db, rfl, hf, rfl⟩
    · rename_i err hf
      exact .inr ⟨err, rfl, rfl, .inl hf⟩

theorem ends_prepareJobGroup {group : JobGroup} :
    (prepareJobGroup e group).Ends s fun r s' =>
      (r = .ok () ∧ s' = { s with prepared := s.prepared ++ [group] }) ∨ (∃ err, r = .error err ∧ s' = s) := by
  unfold Tx.Ends prepareJobGroup
  split
  · exact .inr ⟨_, rfl, rfl⟩
  · exact .inl ⟨rfl, rfl⟩

/-- A transaction commits what its body did when the body succeeds and the commit does; otherwise only the vaults
keep what was written. -/
theorem transaction_cases {ε α : Type} (e : Env) (err : Err → ε) {fn : Tx Session ε α} {w : World}
    {Q : Except ε α → Session → Prop} (h : fn.Ends w.session Q) :
    (∃ a s, Q (.ok a) s ∧ transaction e err fn w = (.ok a, s.prepared, ⟨s.db, s.vault, s.specs⟩)) ∨
      (∃ er s, Q (.error er) s ∧ transaction e err fn w = (.error er, [], ⟨w.db, s.vault, s.specs⟩)) ∨
      (∃ a s er, Q (.ok a) s ∧ er.chain = [] ∧
        transaction e err fn w = (.error (err er), [], ⟨w.db, s.vault, s.specs⟩)) ∨
      ∃ er, er.chain = [] ∧ transaction e err fn w = (.error (err er), [], w) := by
  unfold Tx.Ends at h
  unfold transaction
  split
  · exact .inr (.inr (.inr ⟨_, rfl, rfl⟩))
  · split
    · rename_i er s hfn
      rw [hfn] at h
      exact .inr (.inl ⟨er, s, h, rfl⟩)
    · rename_i a s hfn
      rw [hfn] at h
      split
      · exact .inr (.inr (.inl ⟨a, s, _, h, rfl, rfl⟩))
      · exact .inl ⟨a, s, h, rfl⟩

end

end Krypton
