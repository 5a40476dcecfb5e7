import Krypton.Model

/-!
# Errors

An error value is the list of sentinel errors that `errors.Is` finds in its chain, and its text. `Sentinel` lists the
package-level error variables of the modelled packages, and `outOfFuel`.
-/

namespace Krypton

inductive Sentinel where
  -- store
  | keyNotFound | keyInsertConflict | invalidQuery | keyVersionNotFound | keyVersionQueryInvalid | tenantNotFound
  -- validator
  | emptyKeyKind | invalidKeyID | emptyName | invalidTenantID | invalidKeyKind | invalidParentKey
  | targetNotInTopology | targetDoesNotManageKeyKind | nonRootKey | rootKeyParent | parentKeyAdjacency
  | parentKeyTransientState | keyTransientState | emptyManagedBy | emptyLifecycleState | invalidParentID
  | unknownLifecycleState | reservedLabel | emptyTenantName | invalidVersion | invalidRevision | invalidParentKeyID
  | invalidParentKeyVersion
  -- keylifecycle
  | invalidKeyStateTransition | operationNotAllowedInState
  -- keyoperator
  | keyTransitionRejected | updateKeyState | getKey | createKey | keyConflict | createKeyVersion
  | keyVersionTransitionRejected | updateKeyVersionState
  -- orchestrator
  | noKeysFound | noEligibleKeys | noKeyVersionYet | noParentKeyVersionFound | internal
  -- keyprocessor
  | missingParentKey | providerNotAllowed | providerTypeMismatch | noProviderKeyVersion | providerKeyLabelEmpty
  | processorNotFound | noUsableKeyVersion | keyNotActivated | keyVersionRequired | registryRequired
  | parentNotRegistered
  -- sealer
  | unknownSealerType | sealerNameEmpty | initializationFailed | envVarEmpty | base64Decode | secretEmpty | keySize
  | unknownSecretType | request | unknownCryptorType | cryptorNameEmpty
  -- vault
  | vaultKeyNotFound | unknownVaultType | vaultNameEmpty
  -- spec
  | keyHierarchyNameEmpty | keyHierarchyKeysListEmpty | keyHierarchyFirstKeyNotRoot | keyHierarchyDuplicateKind
  | keyHierarchyDuplicateRoot | keyHierarchyLastKeyNotDek | keyHierarchyInvalidIntermediateKey | keySpecKindEmpty
  | keySpecRoleInvalid | keySpecAlgorithmInvalid | labelsSpecRequirementEmpty | labelValidatorInvalidType
  | labelValidatorMissingRegexPattern | labelValidatorInvalidRegexPattern | labelValidatorMissingEnumValues
  | segmentStartKindNotInHierarchy | segmentEndKindNotInHierarchy | segmentStartAfterEnd | segmentBindingsMissing
  | segmentBindingsExtra | rootSegmentStartNotFirst | rootSegmentEndIsTek | agentSegmentStartNotTek
  | agentSegmentEndIsTek | agentSegmentEndIsRoot | agentSegmentContainsRoot
  | agentSegmentStartMissingParentKeyProvider | tekBindingMissingSealer | bindingMissingCryptor
  | topologyDuplicateSegmentName | parentKeyProviderNotResolvable | parentKeyProviderKeyNotInParentSegment
  | startKindEmpty | endKindEmpty | agentNameEmpty | keyBindingsEmpty | rootKeyNoProviders | rootKeyUnknownProvider
  -- config
  | configNameEmpty | roleInvalid | configKeyBindingsEmpty | rootKeyMissing | invalidConnectionConfig
  | noConnectionConfig | addressTypeInvalid | configAddressEmpty | authConfigMissing | agentNotAllowed
  | identityConfigsMissing | unknownAuthType | nilAuthConfig | invalidIdentities | invalidTLSConfig
  -- identity
  | invalidScheme | emptyDomain | invalidCharacters | invalidPath | emptyField | invalidSelectorPath
  -- terminal
  | interrupt | noItems | notFile | notTerminal
  -- no error of the source: a recursion of the model stopped early
  | outOfFuel
  deriving DecidableEq, Repr

/-- The text the error variable is created with. -/
def Sentinel.text : Sentinel → String
  | .keyNotFound => "key not found"
  | .keyInsertConflict => "key insert skipped due to conflict"
  | .invalidQuery => "invalid query"
  | .keyVersionNotFound => "key version not found"
  | .keyVersionQueryInvalid => "invalid key version query"
  | .tenantNotFound => "tenant not found"
  | .emptyKeyKind => "key kind cannot be empty"
  | .invalidKeyID => "keyId is invalid"
  | .emptyName => "name cannot be empty"
  | .invalidTenantID => "tenantId is invalid"
  | .invalidKeyKind => "key kind is invalid"
  | .invalidParentKey => "parent key is invalid"
  | .targetNotInTopology => "target not present in topology"
  | .targetDoesNotManageKeyKind => "target does not manage the given key kind"
  | .nonRootKey => "non root key must have a parent"
  | .rootKeyParent => "root key cannot have a parent"
  | .parentKeyAdjacency => "key is not adjacent to parent key"
  | .parentKeyTransientState => "parent key is in a transient state, please wait for the parent key to be completed"
  | .keyTransientState => "key is in a transient state, please wait for the key to be completed"
  | .emptyManagedBy => "managed_by cannot be empty"
  | .emptyLifecycleState => "lifecycle_state cannot be empty"
  | .invalidParentID => "parent_id is invalid"
  | .unknownLifecycleState => "lifecycle_state is not a known state"
  | .reservedLabel => "label is reserved for internal use"
  | .emptyTenantName => "tenant name cannot be empty"
  | .invalidVersion => "version must be greater than 0"
  | .invalidRevision => "revision must be greater than 0"
  | .invalidParentKeyID => "parentKeyID is invalid"
  | .invalidParentKeyVersion => "parentKeyVersion must be greater than or equal to 0"
  | .invalidKeyStateTransition => "invalid key state transition"
  | .operationNotAllowedInState => "operation not allowed in current key state"
  | .keyTransitionRejected => "cannot transition key: current state does not match the expected states"
  | .updateKeyState => "failed to update key life cycle and processing state"
  | .getKey => "failed to get key"
  | .createKey => "failed to create key"
  | .keyConflict => "existing key does not match upsert request"
  | .createKeyVersion => "failed to create key version"
  | .keyVersionTransitionRejected => "cannot transition key version: current state does not match the expected states"
  | .updateKeyVersionState => "failed to update key version life cycle and processing state"
  | .noKeysFound => "keys not found"
  | .noEligibleKeys => "no eligible keys found for processing"
  | .noKeyVersionYet => "key version not yet created"
  | .noParentKeyVersionFound => "no parent key version found"
  | .internal => "internal error"
  | .missingParentKey => "parent set but key version has no parent key"
  | .providerNotAllowed => "provider is not allowed"
  | .providerTypeMismatch => "provider type does not match stored spec"
  | .noProviderKeyVersion => "no provider key version found"
  | .providerKeyLabelEmpty => "provider key label is empty"
  | .processorNotFound => "key processor could not be found"
  | .noUsableKeyVersion => "no usable key version found"
  | .keyNotActivated => "key is not in activated state"
  | .keyVersionRequired => "key version is required"
  | .registryRequired => "no registry provided for parent key provider"
  | .parentNotRegistered => "no connection registered for parent key provider"
  | .unknownSealerType => "unknown sealer type"
  | .sealerNameEmpty => "sealer name is empty"
  | .initializationFailed => "static secret initialization failed"
  | .envVarEmpty => "environment variable is empty or not set"
  | .base64Decode => "failed to base64-decode secret"
  | .secretEmpty => "inline secret is empty"
  | .keySize => "inline secret has invalid key size"
  | .unknownSecretType => "unknown secret source type"
  | .request => "invalid cryptographic request"
  | .unknownCryptorType => "unknown cryptor type"
  | .cryptorNameEmpty => "cryptor name is empty"
  | .vaultKeyNotFound => "key not found"
  | .unknownVaultType => "unknown vault type"
  | .vaultNameEmpty => "vault name is empty"
  | .keyHierarchyNameEmpty => "hierarchy name cannot be empty"
  | .keyHierarchyKeysListEmpty => "keys list cannot be empty"
  | .keyHierarchyFirstKeyNotRoot => "first key must have role 'root'"
  | .keyHierarchyDuplicateKind => "duplicate key kind found in hierarchy"
  | .keyHierarchyDuplicateRoot => "only one key can have role 'root'"
  | .keyHierarchyLastKeyNotDek => "last key must have role 'dek'"
  | .keyHierarchyInvalidIntermediateKey => "intermediate keys must have role 'kek' or 'tek'"
  | .keySpecKindEmpty => "key kind cannot be empty"
  | .keySpecRoleInvalid => "invalid role: must be 'root', 'kek', 'tek', or 'dek'"
  | .keySpecAlgorithmInvalid => "invalid algorithm: must be 'AES256'"
  | .labelsSpecRequirementEmpty => "label spec requirement is empty"
  | .labelValidatorInvalidType => "invalid label validator type"
  | .labelValidatorMissingRegexPattern => "missing regex pattern for regex validator"
  | .labelValidatorInvalidRegexPattern => "invalid regex pattern"
  | .labelValidatorMissingEnumValues => "missing enum values for enum validator"
  | .segmentStartKindNotInHierarchy => "segment start kind not found in hierarchy"
  | .segmentEndKindNotInHierarchy => "segment end kind not found in hierarchy"
  | .segmentStartAfterEnd => "segment start kind must not come after end kind in hierarchy"
  | .segmentBindingsMissing => "key binding missing for key kind in segment range"
  | .segmentBindingsExtra => "key binding found for key kind outside segment range"
  | .rootSegmentStartNotFirst => "root segment must start at hierarchy's first key"
  | .rootSegmentEndIsTek => "root segment end kind must not have role tek"
  | .agentSegmentStartNotTek => "agent segment must start with a tek role key"
  | .agentSegmentEndIsTek => "agent segment end kind must not have role tek unless single-key segment"
  | .agentSegmentEndIsRoot => "agent segment end kind must not have role root"
  | .agentSegmentContainsRoot => "agent segment must not contain the root role key"
  | .agentSegmentStartMissingParentKeyProvider => "agent segment tek start key must have a parent key provider"
  | .tekBindingMissingSealer => "tek key binding must have a sealer"
  | .bindingMissingCryptor => "key binding must have a cryptor"
  | .topologyDuplicateSegmentName => "duplicate topology segment name"
  | .parentKeyProviderNotResolvable => "parent key provider agent name does not resolve to root or any topology segment"
  | .parentKeyProviderKeyNotInParentSegment => "parent key provider's segment does not contain the parent key kind"
  | .startKindEmpty => "start kind cannot be empty"
  | .endKindEmpty => "end kind cannot be empty"
  | .agentNameEmpty => "agent name cannot be empty"
  | .keyBindingsEmpty => "key bindings cannot be empty"
  | .rootKeyNoProviders => "root key must allow at least one provider"
  | .rootKeyUnknownProvider => "root key allowed provider is not a known sealer type"
  | .configNameEmpty => "config name cannot be empty"
  | .roleInvalid => "invalid config role"
  | .configKeyBindingsEmpty => "key bindings cannot be empty"
  | .rootKeyMissing => "root key config is missing"
  | .invalidConnectionConfig => "connection config is invalid"
  | .noConnectionConfig => "connection config not found"
  | .addressTypeInvalid => "address type must be 'grpc'"
  | .configAddressEmpty => "address URL cannot be empty"
  | .authConfigMissing => "auth config is missing"
  | .agentNotAllowed => "agent is not allowed to connect to root"
  | .identityConfigsMissing => "identity configs missing for topology members"
  | .unknownAuthType => "unknown auth type"
  | .nilAuthConfig => "auth config cannot be nil"
  | .invalidIdentities => "invalid identities"
  | .invalidTLSConfig => "invalid TLS configuration: missing required certificate, key, or CA paths"
  | .invalidScheme => "invalid scheme"
  | .emptyDomain => "domain cannot be empty"
  | .invalidCharacters => "contains invalid characters"
  | .invalidPath => "invalid path: must have even number of fields (type/name pairs)"
  | .emptyField => "field type and name must be non-empty"
  | .invalidSelectorPath => "invalid selector path"
  | .interrupt => "selection interrupted"
  | .noItems => "no items to select from"
  | .notFile => "input is not a file"
  | .notTerminal => "input is not a terminal"
  | .outOfFuel => "out of fuel"

structure Err where
  /-- The sentinels on the chain of wrapped errors. -/
  chain : List Sentinel
  text : String
  deriving DecidableEq, Repr

namespace Err

/-- `errors.Is`. -/
def is (e : Err) (s : Sentinel) : Bool := e.chain.contains s

/-- An error without a sentinel. -/
def plain (text : String) : Err := ⟨[], text⟩

def of (s : Sentinel) : Err := ⟨[s], s.text⟩

/-- `fmt.Errorf("%w: …", s)`. -/
def detail (s : Sentinel) (text : String) : Err := ⟨[s], s.text ++ ": " ++ text⟩

/-- `fmt.Errorf("…: %w", e)`. -/
def context (text : String) (e : Err) : Err := ⟨e.chain, text ++ ": " ++ e.text⟩

/-- `fmt.Errorf("%w: %w", s, e)`. -/
def wrap (s : Sentinel) (e : Err) : Err := ⟨s :: e.chain, s.text ++ ": " ++ e.text⟩

theorem is_of_chain_nil {e : Err} (h : e.chain = []) (t : Sentinel) : e.is t = false := by simp [is, h]

@[simp] theorem is_plain (t : Sentinel) (x : String) : (plain x).is t = false := rfl

@[simp] theorem is_of (s t : Sentinel) : (of s).is t = decide (t = s) := by simp [is, of]

@[simp] theorem is_detail (s t : Sentinel) (x : String) : (detail s x).is t = decide (t = s) := by simp [is, detail]

@[simp] theorem is_context (t : Sentinel) (x : String) (e : Err) : (context x e).is t = e.is t := rfl

@[simp] theorem is_wrap (s t : Sentinel) (e : Err) : (wrap s e).is t = (decide (t = s) || e.is t) := by
  simp [is, wrap]

end Err

/-- `unicode.IsSpace`. -/
def isSpace (c : Char) : Bool :=
  [0x09, 0x0a, 0x0b, 0x0c, 0x0d, 0x20, 0x85, 0xa0, 0x1680, 0x2000, 0x2001, 0x2002, 0x2003, 0x2004, 0x2005,
    0x2006, 0x2007, 0x2008, 0x2009, 0x200a, 0x2028, 0x2029, 0x202f, 0x205f, 0x3000].contains c.toNat

/-- `strings.TrimSpace` leaves nothing. -/
def isBlank (s : String) : Bool := s.toList.all isSpace

/-- `%q` of a text without characters to escape. -/
def quote (s : String) : String := "\"" ++ s ++ "\""

end Krypton
