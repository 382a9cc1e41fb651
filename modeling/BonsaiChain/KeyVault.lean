import BonsaiChain.Lib.Runs
import BonsaiChain.PrivateEnclave

/-!
# The in-memory key vault

`privacy/key_vault.c`: a list of keys under their identities, and the calls of an enclave over it.
The random source that keys are minted from is a sequence of answers, of which the vault has drawn
the first ones.
-/

namespace BonsaiChain

open Lib

section Vault

/-- `kv_state_t`, with the number of keys drawn from the random source. -/
structure KvState where
  entries : List (CString × Block 32)
  drawn : ℕ
  deriving DecidableEq

/-- `in_memory_key_vault_new`. -/
def KvState.new : KvState := ⟨[], 0⟩

/-- The key that `kv_find` finds. -/
def kvFind (v : KvState) (identityId : CString) : Option (Block 32) :=
  (v.entries.find? (·.1 == identityId)).map (·.2)

/-- `kv_ensure_key`; the source answers nothing when it fails. -/
def kvEnsureKey (rand : ℕ → Option (Block 32)) : EnsureKey KvState := fun v identityId =>
  match kvFind v identityId with
  | some key => (.ok key, v)
  | none =>
    match rand v.drawn with
    | none => (.error .ecrypto, { v with drawn := v.drawn + 1 })
    | some key => (.ok key, ⟨(identityId, key) :: v.entries, v.drawn + 1⟩)

def kvGetKey : GetKey KvState := fun v identityId => .ok (kvFind v identityId)

/-- `kv_shred` takes the first entry of the identity out of the list. -/
def kvShred : ShredKey KvState := fun v identityId =>
  match kvFind v identityId with
  | some _ => (.ok true, { v with entries := v.entries.eraseP (·.1 == identityId) })
  | none => (.ok false, v)

end Vault

section Calls

/-- The calls of an enclave, each with what it reads. -/
inductive EnclaveCall where
  | sealRecord (identityId : CString) (plaintext : Option Bytes) (reads : SealReads)
  | sealAction (identityId : CString) (payload : Option Bytes)
    (provenance : Option ProvenanceRecord) (reads : SealReads)
  | openRecord (record : SealedRecord)
  | recompute (identityId : CString) (payload : Option Bytes)
  | shred (identityId : CString)

variable (crypto : EnclaveAead) (rand : ℕ → Option (Block 32))

/-- The vault after a call. -/
def enclaveCall (v : KvState) : EnclaveCall → KvState
  | .sealRecord identityId plaintext reads =>
    (privateEnclaveSeal crypto.toEnclaveCrypto (kvEnsureKey rand) v identityId plaintext reads).2
  | .sealAction identityId payload provenance reads =>
    (privateEnclaveSealAction crypto.toEnclaveCrypto (kvEnsureKey rand) v identityId payload
      provenance reads).2
  | .openRecord _ | .recompute _ _ => v
  | .shred identityId => (privateEnclaveShred crypto.toEnclaveCrypto kvShred v identityId).2

/-- What a call that seals returned: the record, the plaintext it was given, and the action hash
when there is one. -/
def sealedBy (v : KvState) : EnclaveCall → Option (SealedRecord × Bytes × Option CString)
  | .sealRecord identityId (some plaintext) reads =>
    match privateEnclaveSeal crypto.toEnclaveCrypto (kvEnsureKey rand) v identityId (some plaintext)
      reads with
    | (.ok record, _) => some (record, plaintext, none)
    | (.error _, _) => none
  | .sealAction identityId (some payload) provenance reads =>
    match privateEnclaveSealAction crypto.toEnclaveCrypto (kvEnsureKey rand) v identityId
      (some payload) provenance reads with
    | (.ok action, _) => some (action.record, payload, some action.actionHash)
    | (.error _, _) => none
  | _ => none

/-- The vault after the calls, in order. -/
def enclaveRun (v : KvState) (calls : List EnclaveCall) : KvState :=
  run (enclaveCall crypto rand) v calls

/-- Opening, in a state of the vault. -/
def enclaveOpen (v : KvState) (record : SealedRecord) : Except Err Bytes :=
  privateEnclaveOpen crypto kvGetKey v record

/-- The action hash that is recomputed in a state of the vault. -/
def enclaveActionHash (v : KvState) (identityId : CString) (payload : Option Bytes) :
    Except Err (Option CString) :=
  privateEnclaveRecomputeActionHash crypto.toEnclaveCrypto kvGetKey v identityId payload

end Calls

end BonsaiChain
