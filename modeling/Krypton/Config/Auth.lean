import Krypton.Errors
import Krypton.Lib.Check

/-!
# Authentication settings

The `auth` block of the root's configuration: the identities that may connect and the certificates for mTLS
(`internal/config/auth.go`, `internal/identity`).
-/

namespace Krypton

open Lib

/-! ## Identities -/

structure IdentityField where
  type : String
  name : String
  deriving DecidableEq, Repr

structure Identity where
  domain : String
  fields : List IdentityField
  deriving DecidableEq, Repr

namespace Identity

def hasInvalidChars (s : String) : Bool := s.toList.any fun c => "*/\t\n\r ".toList.contains c

def validateDomain (d : String) : Except Err Unit := do
  check (d ≠ "") (.of .emptyDomain)
  check (!hasInvalidChars d) (.of .invalidCharacters)

def validateField (f : IdentityField) : Except Err Unit :=
  checkAll (fun v => do
    check (v ≠ "") (.of .emptyField)
    check (!hasInvalidChars v) (.of .invalidCharacters)) [f.type, f.name]

/-- The type/name pairs of a path, each checked. -/
def parseFields : List String → Except Err (List IdentityField)
  | [] => .ok []
  | [_] => .error (.of .invalidPath)
  | type :: name :: rest => do
    validateField ⟨type, name⟩
    let fields ← parseFields rest
    return ⟨type, name⟩ :: fields

def scheme : List Char := "kryptonid://".toList

/-- `Parse` of a `kryptonid://` URI. -/
def parse (uri : String) : Except Err Identity :=
  if !scheme.isPrefixOf uri.toList then .error (.of .invalidScheme)
  else do
    let after := uri.toList.drop scheme.length
    let domain := String.ofList (after.takeWhile (· ≠ '/'))
    let path := (after.dropWhile (· ≠ '/')).drop 1
    validateDomain domain
    if path = [] then return ⟨domain, []⟩
    let parts := (path.splitOn '/').map String.ofList
    check (parts.length % 2 = 0) (.of .invalidPath)
    let fields ← parseFields parts
    return ⟨domain, fields⟩

end Identity

/-! ## The auth block -/

inductive AuthType where
  | mtls
  | other (name : String)
  deriving DecidableEq, Repr

def AuthType.text : AuthType → String
  | .mtls => "mtls"
  | .other name => name

structure IdentityConfig where
  name : String
  uri : String
  deriving DecidableEq, Repr

/-- The files for one side of mTLS. -/
structure TLSPaths where
  certPath : String
  keyPath : String
  caPath : String
  deriving DecidableEq, Repr

structure MTLSConfig where
  server : TLSPaths
  client : TLSPaths
  deriving DecidableEq, Repr

structure RootAuthConfig where
  authType : AuthType
  identityConfigs : List IdentityConfig
  config : Option MTLSConfig
  deriving DecidableEq, Repr

def TLSPaths.validate (t : TLSPaths) : Except Err Unit :=
  check (t.certPath ≠ "" && t.keyPath ≠ "" && t.caPath ≠ "") (.of .invalidTLSConfig)

def MTLSConfig.validate (m : MTLSConfig) : Except Err Unit := do
  m.server.validate.mapError (.context "server")
  m.client.validate.mapError (.context "client")

def IdentityConfig.validate (i : IdentityConfig) : Except Err Unit := do
  check (!isBlank i.name) (.detail .invalidIdentities "identity name cannot be empty")
  match Identity.parse i.uri with
  | .ok _ => .ok ()
  | .error err => .error ⟨.invalidIdentities :: err.chain,
      Sentinel.invalidIdentities.text ++ "\n" ++ err.text ++ ": invalid identity URI " ++ quote i.uri⟩

def RootAuthConfig.validate (c : RootAuthConfig) : Except Err Unit := do
  check (c.authType = .mtls) (.detail .unknownAuthType (quote c.authType.text))
  check (!c.identityConfigs.isEmpty) (.detail .invalidIdentities "identities cannot be empty")
  checkAll IdentityConfig.validate c.identityConfigs
  match c.config with
  | none => .error (.of .nilAuthConfig)
  | some m => m.validate

/-- No two identities share a name. -/
def validateIdentityNames : List String → List IdentityConfig → Except Err Unit
  | _, [] => .ok ()
  | seen, id :: ids => do
    check (!seen.contains id.name) (.detail .invalidIdentities ("duplicate identity name " ++ quote id.name))
    validateIdentityNames (id.name :: seen) ids

/-- Every expected name has an identity. -/
def validateAuthIdentities (ids : List IdentityConfig) (expected : List String) : Except Err Unit := do
  validateIdentityNames [] ids
  let missing := expected.filter fun name => !(ids.any fun id => id.name == name)
  check missing.isEmpty
    (.detail .invalidIdentities ("missing identities for segments: [" ++ " ".intercalate missing ++ "]"))

theorem validateAuthIdentities_ok {ids : List IdentityConfig} {expected : List String}
    (h : validateAuthIdentities ids expected = .ok ()) : ∀ name ∈ expected, ∃ id ∈ ids, id.name = name := by
  simp only [validateAuthIdentities, bind_unit_eq_ok, check_eq_ok, List.isEmpty_iff, List.filter_eq_nil_iff,
    Bool.not_eq_true', Bool.not_eq_false, List.any_eq_true, beq_iff_eq] at h
  exact h.2

end Krypton
