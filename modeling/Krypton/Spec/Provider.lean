import Krypton.Errors
import Krypton.Lib.Check

/-!
# Component specifications

The specs a configuration gives for vaults, cryptors and sealers, with the checks on them and the constructors that
turn them into components (`vaultprovider`, `cryptorprovider`, `sealerprovider`, `secretprovider`). Each spec names a
type and holds the configuration of an implementation; nothing forces the two to fit.

What a constructor needs from the process (environment variables, whether a store opens) is in `Process`.
-/

namespace Krypton

open Lib

/-! ## Vaults -/

inductive VaultType where
  | unsafeMemory | unsafeFile | openBao
  | other (name : String)
  deriving DecidableEq, Repr

inductive VaultConfig where
  | inMemory
  | file (path : String)
  | openBao (address : String)
  deriving DecidableEq, Repr

structure VaultSpec where
  name : String
  type : VaultType
  config : Option VaultConfig
  deriving DecidableEq, Repr

/-- Where a vault keeps its entries: in-memory vaults of one process share one database. -/
inductive VaultLoc where
  | memory (process : String)
  | file (path : String)
  | openBao (address : String)
  deriving DecidableEq, Repr

/-- What a running node takes from its surroundings. -/
structure Process where
  /-- The name of the node, which tells its memory from that of the others. -/
  name : String
  /-- The decoded value of an environment variable; `none` when it is unset, empty or not base64. -/
  getenv : String → Option Bytes
  /-- Whether the store behind a vault opens. -/
  opens : VaultLoc → Bool

/-- `%T` of a configuration. -/
def VaultConfig.goType : Option VaultConfig → String
  | none => "<nil>"
  | some .inMemory => "*sqlitevault.InMemoryConfig"
  | some (.file _) => "*sqlitevault.FileConfig"
  | some (.openBao _) => "*openbaovault.Config"

/-- A configuration of another type than the spec's. -/
def errConfigType (expected type got : String) : Err :=
  .plain ("expected " ++ expected ++ " for type " ++ quote type ++ ", got " ++ got)

def VaultConfig.validate : VaultConfig → Except Err Unit
  | .inMemory => .ok ()
  | .file path => check (path ≠ "") (.plain "path must not be empty")
  | .openBao address => check (address ≠ "") (.plain "address is required")

def VaultType.validate : VaultType → Except Err Unit
  | .other name => .error (.detail .unknownVaultType (quote name))
  | _ => .ok ()

def VaultSpec.validate (s : VaultSpec) : Except Err Unit := do
  check (s.name ≠ "") (.of .vaultNameEmpty)
  s.type.validate
  match s.config with
  | some c => c.validate
  | none => .ok ()

/-- `GetVault`: the vault a spec describes, by where it keeps its entries. -/
def VaultSpec.getVault (P : Process) (s : VaultSpec) : Except Err VaultLoc :=
  match s.type, s.config with
  | .unsafeMemory, _ => openAt (.memory P.name)
  | .unsafeFile, some (.file path) => openAt (.file path)
  | .unsafeFile, c => .error (errConfigType "*sqlitevault.FileConfig" "unsafe-sqlite" (VaultConfig.goType c))
  | .openBao, some (.openBao address) => openAt (.openBao address)
  | .openBao, c => .error (errConfigType "*openbaovault.Config" "openbao" (VaultConfig.goType c))
  | .other name, _ => .error (.detail .unknownVaultType (quote name))
where
  openAt (loc : VaultLoc) : Except Err VaultLoc :=
    if P.opens loc then .ok loc else .error (.plain "unable to open database file")

/-! ## Cryptors -/

inductive CryptorConfig where
  | aes256gcm
  deriving DecidableEq, Repr

structure CryptorSpec where
  name : String
  config : Option CryptorConfig
  deriving DecidableEq, Repr

def CryptorSpec.validate (s : CryptorSpec) : Except Err Unit :=
  check (s.name ≠ "") (.of .cryptorNameEmpty)

/-- `GetBundle`: a cryptor and a secret generator. -/
def CryptorSpec.getBundle (s : CryptorSpec) : Except Err CryptorConfig :=
  match s.config with
  | some c => .ok c
  | none => .error (.detail .unknownCryptorType "<nil>")

/-! ## Secrets and sealers -/

inductive SecretType where
  | envvar | inline
  | other (name : String)
  deriving DecidableEq, Repr

inductive SecretConfig where
  | envvar (name : String)
  /-- The bytes the base64 text stands for; `none` when it does not decode. -/
  | inline (secret : Option Bytes)
  deriving DecidableEq, Repr

structure SecretSpec where
  type : SecretType
  config : Option SecretConfig
  deriving DecidableEq, Repr

/-- `%T` of a configuration. -/
def SecretConfig.goType : Option SecretConfig → String
  | none => "<nil>"
  | some (.envvar _) => "*envvar.Config"
  | some (.inline _) => "*inline.Config"

/-- The key size of AES-256. -/
def keySize : Nat := 32

def SecretConfig.validate : SecretConfig → Except Err Unit
  | .envvar name => check (name ≠ "") (.plain "environment variable name must not be empty")
  | .inline none => .error (.of .base64Decode)
  | .inline (some []) => .error (.of .secretEmpty)
  | .inline (some b) => check (b.length = keySize)
      (.detail .keySize ("expected 32 bytes, got " ++ toString b.length))

def SecretSpec.validate (s : SecretSpec) : Except Err Unit := do
  check (s.type ≠ .other "") (.detail .unknownSecretType "type is empty")
  match s.config with
  | some c => c.validate
  | none => .ok ()

/-- `GetSecret`: load the bytes a spec refers to. -/
def SecretSpec.getSecret (P : Process) (s : SecretSpec) : Except Err Bytes :=
  match s.type, s.config with
  | .envvar, some (.envvar name) => ((P.getenv name).elim (.error (.detail .envVarEmpty name)) .ok)
  | .envvar, c => .error (errConfigType "*envvar.Config" "envvar" (SecretConfig.goType c))
  | .inline, some (.inline none) => .error (.of .base64Decode)
  | .inline, some (.inline (some [])) => .error (.of .secretEmpty)
  | .inline, some (.inline (some b)) => .ok b
  | .inline, c => .error (errConfigType "*inline.Config" "inline" (SecretConfig.goType c))
  | .other name, _ => .error (.detail .unknownSecretType (quote name))

inductive SealerType where
  | staticSecret
  | other (name : String)
  deriving DecidableEq, Repr

def SealerType.text : SealerType → String
  | .staticSecret => "aes256gcm-staticsecret"
  | .other name => name

inductive SealerConfig where
  | staticSecret (secret : SecretSpec)
  deriving DecidableEq, Repr

inductive SealerAuth where
  | staticSecret
  deriving DecidableEq, Repr

structure SealerSpec where
  name : String
  type : SealerType
  config : Option SealerConfig
  auth : Option SealerAuth
  deriving DecidableEq, Repr

/-- `ValidateType`: only the static-secret sealer is known. -/
def SealerType.validate : SealerType → Except Err Unit
  | .staticSecret => .ok ()
  | .other name => .error (.detail .unknownSealerType (quote name))

def SealerSpec.validate (s : SealerSpec) : Except Err Unit := do
  check (s.name ≠ "") (.of .sealerNameEmpty)
  match s.config with
  | some (.staticSecret secret) => secret.validate
  | none => .ok ()

/-- `GetSealer`: the key of the static-secret sealer a spec describes. -/
def SealerSpec.getSealer (P : Process) (s : SealerSpec) : Except Err Bytes :=
  match s.config with
  | some (.staticSecret secret) => do
    let key ← secret.getSecret P
    check (s.name ≠ "") (.context "name must not be empty" (.of .initializationFailed))
    check (key.length = keySize) (.context "invalid secret" (.of .initializationFailed))
    return key
  | none => .error (.detail .unknownSealerType "<nil>")

end Krypton
