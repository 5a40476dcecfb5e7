import Krypton.KeyProcessor.Manager

/-!
# The KMIP front end

`internal/kmip`: a client asks for a key with `tenantID:keyID:keyVersion`; the tenant must be the common name of the
client's certificate. `Get` exports the secret of a key version, `GetAttributes` describes it.
-/

namespace Krypton

open Lib

/-! ## Describing keys -/

structure DescribeKeyResponse where
  key : Key
  keyVersion : KeyVersion
  algorithm : KeyAlgorithm
  deriving DecidableEq, Repr

/-- `Manager.DescribeKey` on a node. A manager knows the algorithm of each kind it has a processor for, as the hierarchy
`h` it was built for gives it. -/
def describeKey (C : Cluster) (h : KeyHierarchy) (S : ClusterState) (node tenantID keyID : String) (version : Nat) :
    Except Err DescribeKeyResponse := do
  let (key, keyVersion) ← resolveActiveKey (S.db node) tenantID keyID version
  match (C.managers node).bind fun m => m.processor key.kind, h.findKeySpec key.kind with
  | some _, some sp => return { key, keyVersion, algorithm := sp.algorithm }
  | _, _ => .error (.detail .processorNotFound ("key kind " ++ key.kind))

/-- A call with a version number of type `int`: the query for it refuses a number that the column cannot hold and finds
no row with a negative one. -/
def atVersion {α : Type} (tenantID keyID : String) (version : Int) (call : Nat → Except Err α) : Except Err α :=
  if 0 ≤ version ∧ version < intBound then call version.toNat
  else match (⟨tenantID, keyID, 1, none, none, []⟩ : DB.ListKeyVersionsQuery).params with
    | .error e => .error e
    | .ok _ =>
      if -intBound ≤ version ∧ version < 0 then
        .error (.detail .noUsableKeyVersion ("key " ++ keyID ++ " version " ++ toString version))
      else .error (.plain ("pq: value " ++ quote (toString version) ++ " is out of range for type integer"))

/-! ## Errors on the wire -/

inductive ResultReason where
  | invalidField | itemNotFound | permissionDenied | generalFailure
  deriving DecidableEq, Repr

structure KmipError where
  reason : ResultReason
  message : String
  deriving DecidableEq, Repr

/-- The errors of the package. -/
inductive KmipFault where
  | invalidKeyIdentifier | noClientCert | tenantMismatch | keyNotFound | keyNotActive | unsupportedAlgorithm
  | noSecureVault | internal
  deriving DecidableEq, Repr

def toKMIPError : KmipFault → KmipError
  | .invalidKeyIdentifier => ⟨.invalidField, "invalid key identifier format"⟩
  | .keyNotFound => ⟨.itemNotFound, "key not found"⟩
  | .keyNotActive => ⟨.permissionDenied, "key not active"⟩
  | .tenantMismatch | .noClientCert => ⟨.permissionDenied, "permission denied"⟩
  | .unsupportedAlgorithm | .noSecureVault | .internal => ⟨.generalFailure, "internal server error"⟩

def mapKeyProcessorError (err : Err) : KmipFault :=
  if err.is .keyNotFound || err.is .noUsableKeyVersion then .keyNotFound
  else if err.is .keyNotActivated then .keyNotActive
  else .internal

/-- The wire constant of an algorithm and its key length in bits. -/
def kmipAlgorithmInfo : KeyAlgorithm → Except KmipFault (String × Nat)
  | .aes256 => .ok ("AES", 256)
  | .other _ => .error .unsupportedAlgorithm

/-! ## Authorization -/

/-- A client connection: the common name of the first peer certificate, where there is one, and the vault for exported
secrets. -/
structure Connection where
  commonName : Option String
  hasVault : Bool
  importFails : Bool
  deriving DecidableEq, Repr

structure KmipKeyIdentifier where
  tenantID : String
  keyID : String
  version : Int
  deriving DecidableEq, Repr

/-- `strconv.Atoi`. -/
def atoi (s : String) : Option Int :=
  let (sign, digits) : Int × List Char := match s.toList with
    | '-' :: ds => (-1, ds)
    | '+' :: ds => (1, ds)
    | ds => (1, ds)
  let n : Int := sign * digits.foldl (fun (n : Nat) c => 10 * n + (c.toNat - '0'.toNat)) 0
  if !digits.isEmpty && digits.all Char.isDigit && -2 ^ 63 ≤ n && n < 2 ^ 63 then some n else none

/-- `tenantID:keyID:keyVersion`, with three parts that are not empty. -/
def parseIdentifier (uniqueIdentifier : String) : Option KmipKeyIdentifier :=
  match (uniqueIdentifier.toList.splitOn ':').map String.ofList with
  | [tenantID, keyID, version] =>
    if tenantID = "" || keyID = "" || version = "" then none
    else (atoi version).map fun v => ⟨tenantID, keyID, v⟩
  | _ => none

def authorizeIdentifier (conn : Connection) (uniqueIdentifier : String) : Except KmipFault KmipKeyIdentifier :=
  match parseIdentifier uniqueIdentifier with
  | none => .error .invalidKeyIdentifier
  | some id =>
    match conn.commonName with
    | none => .error .noClientCert
    | some cn =>
      if cn = "" then .error .noClientCert
      else if cn ≠ id.tenantID then .error .tenantMismatch
      else .ok id

section
variable {conn : Connection} {uid t : String} {id : KmipKeyIdentifier}

/-- An authorized identifier is for the tenant of the certificate. -/
theorem authorizeIdentifier_ok (h : authorizeIdentifier conn uid = .ok id) (ht : conn.commonName = some t) :
    id.tenantID = t := by
  unfold authorizeIdentifier at h
  rw [ht] at h
  split at h
  · cases h
  · dsimp only at h
    split at h
    · cases h
    · split at h
      · cases h
      · rename_i hne
        cases h
        rw [ne_eq, not_not] at hne
        exact hne.symm

/-- An identifier of another tenant is refused. -/
theorem authorizeIdentifier_other (ht : conn.commonName = some t) (hid : parseIdentifier uid = some id)
    (h : id.tenantID ≠ t) :
    ∃ fault, authorizeIdentifier conn uid = .error fault ∧
      toKMIPError fault = ⟨.permissionDenied, "permission denied"⟩ := by
  unfold authorizeIdentifier
  rw [hid, ht]
  dsimp only
  by_cases hcn : t = ""
  · exact ⟨.noClientCert, if_pos hcn, rfl⟩
  · exact ⟨.tenantMismatch, by rw [if_neg hcn, if_pos h.symm], rfl⟩

end

/-! ## Operations -/

inductive AttributeName where
  | state | cryptographicAlgorithm | cryptographicLength | objectType
  | other (name : String)
  deriving DecidableEq, Repr

inductive AttributeValue where
  | active
  | algorithm (name : String)
  | length (bits : Nat)
  | symmetricKey
  deriving DecidableEq, Repr

inductive KmipRequest where
  | get (uniqueIdentifier : String)
  | getAttributes (uniqueIdentifier : String) (attributeNames : List AttributeName)

def KmipRequest.uniqueIdentifier : KmipRequest → String
  | .get uid => uid
  | .getAttributes uid _ => uid

inductive KmipResponse where
  | symmetricKey (uniqueIdentifier algorithm : String) (lengthBits : Nat) (material : Bytes)
  | attributes (uniqueIdentifier : String) (attributes : List (AttributeName × AttributeValue))
  deriving DecidableEq, Repr

def defaultAttributeNames : List AttributeName := [.state, .cryptographicAlgorithm, .cryptographicLength, .objectType]

/-- The value of a supported attribute. -/
def attributeValue (algorithm : String) (lengthBits : Nat) : AttributeName → Option AttributeValue
  | .state => some .active
  | .cryptographicAlgorithm => some (.algorithm algorithm)
  | .cryptographicLength => some (.length lengthBits)
  | .objectType => some .symmetricKey
  | .other _ => none

section
variable (C : Cluster) (h : KeyHierarchy) (S : ClusterState) (fuel : Nat) (node : String) (conn : Connection)

def handleGet (uniqueIdentifier : String) (id : KmipKeyIdentifier) : Except KmipFault KmipResponse := do
  let sec ← (atVersion id.tenantID id.keyID id.version (exportSecret C S fuel node id.tenantID id.keyID)).mapError
    mapKeyProcessorError
  -- an exported secret is always an AES-256 key
  let (algorithm, _) ← kmipAlgorithmInfo .aes256
  check conn.hasVault .noSecureVault
  check (!conn.importFails) .internal
  return .symmetricKey uniqueIdentifier algorithm (sec.length * 8) sec

def handleGetAttributes (uniqueIdentifier : String) (attributeNames : List AttributeName) (id : KmipKeyIdentifier) :
    Except KmipFault KmipResponse := do
  let described ← (atVersion id.tenantID id.keyID id.version (describeKey C h S node id.tenantID id.keyID)).mapError
    mapKeyProcessorError
  let (algorithm, lengthBits) ← kmipAlgorithmInfo described.algorithm
  let names := if attributeNames.isEmpty then defaultAttributeNames else attributeNames.eraseDups
  return .attributes uniqueIdentifier
    (names.filterMap fun n => (attributeValue algorithm lengthBits n).map fun v => (n, v))

/-- A request behind the authorizer. -/
def kmipHandle (req : KmipRequest) : Except KmipError KmipResponse :=
  Except.mapError toKMIPError do
    let id ← authorizeIdentifier conn req.uniqueIdentifier
    match req with
    | .get uid => handleGet C S fuel node conn uid id
    | .getAttributes uid names => handleGetAttributes C h S node uid names id

end

end Krypton
