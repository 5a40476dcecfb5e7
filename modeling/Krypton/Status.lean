import Krypton.Errors

/-!
# Answers of the services

The gRPC status a service answers a failed call with, and the detail code it attaches for the caller
(`pkg/api/v1/proto/error.go`). A caller that wants to know whether to try again looks at the detail code alone.
-/

namespace Krypton

/-- The status codes the services use. -/
inductive Code where
  | invalidArgument | notFound | failedPrecondition | permissionDenied | unauthenticated | internal
  deriving DecidableEq, Repr

/-- The detail code of an error. -/
inductive ErrorCode where
  | abort | retry
  deriving DecidableEq, Repr

structure Status where
  code : Code
  message : String
  details : Option ErrorCode
  deriving DecidableEq, Repr

/-- `ErrDetailsWithCode`: details can be attached to every code but `OK`. -/
def errDetailsWithCode (code : Code) (message : String) (c : ErrorCode) : Status := ⟨code, message, some c⟩

/-- `Retryable` of an error that a service answered with: without details it did not come from a service. -/
def Status.retryable (st : Status) : Bool :=
  match st.details with
  | some c => c == .retry
  | none => true

end Krypton
