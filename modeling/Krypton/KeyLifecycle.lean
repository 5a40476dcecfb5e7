import Krypton.Errors

/-!
# Key lifecycle

The state machine of `internal/keylifecycle`: which lifecycle state may follow which, and which uses a state permits.

* `validateTransition_preActivation` — nothing leads back to pre-activation;
* `validateKeyUsage_link`, `validateKeyUsage_rotate` — providers are bound before a key is used, and rotated while it
  is.
-/

namespace Krypton

/-! ## Uses -/

/-- A bit mask of permitted operations. -/
abbrev KeyUsage : Type := Nat

namespace KeyUsage

def none : KeyUsage := 0
def encrypt : KeyUsage := 1
def decrypt : KeyUsage := 2
def wrap : KeyUsage := 4
def unwrap : KeyUsage := 8
def link : KeyUsage := 16
def rotate : KeyUsage := 32

/-- All flags of `usage` are set; false for no flag. -/
def has (u usage : KeyUsage) : Bool := usage != 0 && u &&& usage == usage

def names : List (KeyUsage × String) :=
  [(encrypt, "encrypt"), (decrypt, "decrypt"), (wrap, "wrap"), (unwrap, "unwrap"), (link, "link"),
    (rotate, "rotate")]

/-- The set flags, separated by `|`. -/
def text (u : KeyUsage) : String :=
  if u = none then "none" else "|".intercalate ((names.filter fun p => u.has p.1).map Prod.snd)

end KeyUsage

namespace KeyLifecycle

/-! ## Transitions -/

/-- The states that may follow a state. -/
def transitions : KeyLifeCycleState → List KeyLifeCycleState
  | .preActivation => [.destroyed, .active, .compromised]
  | .active => [.destroyed, .deactivated, .suspended, .compromised]
  | .suspended => [.destroyed, .deactivated, .compromised, .active]
  | .deactivated => [.destroyed, .compromised]
  | .compromised => [.destroyed]
  | .destroyed => []

def stateUsages : KeyLifeCycleState → KeyUsage
  | .preActivation => .link
  | .active => .encrypt ||| .decrypt ||| .unwrap ||| .wrap ||| .rotate
  | .suspended | .deactivated | .compromised => .decrypt ||| .unwrap
  | .destroyed => .none

def validateTransition (src dst : KeyLifeCycleState) : Except Err Unit :=
  if (transitions src).contains dst then .ok ()
  else .error (.context ("cannot transition from " ++ src.text ++ " to " ++ dst.text) (.of .invalidKeyStateTransition))

/-- Whether operation `op` is permitted in state `s`. -/
def validateKeyUsage (s : KeyLifeCycleState) (op : KeyUsage) : Except Err Unit :=
  if (stateUsages s).has op then .ok ()
  else .error (.context ("operation " ++ op.text ++ " not allowed in state " ++ s.text)
    (.of .operationNotAllowedInState))

theorem validateTransition_ok {a b : KeyLifeCycleState} : validateTransition a b = .ok () ↔ b ∈ transitions a := by
  unfold validateTransition
  split <;> simp_all

/-- No state is followed by pre-activation. -/
theorem validateTransition_preActivation (a : KeyLifeCycleState) : validateTransition a .preActivation ≠ .ok () := by
  rw [Ne, validateTransition_ok]
  cases a <;> decide

/-! ## Permitted uses -/

theorem validateKeyUsage_ok {s : KeyLifeCycleState} {op : KeyUsage} :
    validateKeyUsage s op = .ok () ↔ (stateUsages s).has op = true := by
  unfold validateKeyUsage
  split <;> simp_all

/-- Binding a provider is for pre-activation keys only. -/
theorem validateKeyUsage_link {s : KeyLifeCycleState} : validateKeyUsage s .link = .ok () ↔ s = .preActivation := by
  rw [validateKeyUsage_ok]
  cases s <;> decide

/-- Rotating is for active keys only. -/
theorem validateKeyUsage_rotate {s : KeyLifeCycleState} : validateKeyUsage s .rotate = .ok () ↔ s = .active := by
  rw [validateKeyUsage_ok]
  cases s <;> decide

/-- Decrypting is for keys that have been active and are not destroyed. -/
theorem validateKeyUsage_decrypt {s : KeyLifeCycleState} :
    validateKeyUsage s .decrypt = .ok () ↔ s ≠ .preActivation ∧ s ≠ .destroyed := by
  rw [validateKeyUsage_ok]
  cases s <;> decide

theorem validateKeyUsage_encrypt {s : KeyLifeCycleState} : validateKeyUsage s .encrypt = .ok () ↔ s = .active := by
  rw [validateKeyUsage_ok]
  cases s <;> decide

end KeyLifecycle

end Krypton
