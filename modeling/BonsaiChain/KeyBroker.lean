import BonsaiChain.AuthorizationEnvelope
import BonsaiChain.IdentityChainView
import Mathlib.Data.List.Infix

/-!
# The key broker

Keys are issued for an identity, stored by the hash of their secret, metered by their envelope, and
latched revoked for good once the oracle reports their identity revoked or the operator revokes
them. The oracle is a function of its own state, and every call is given the reading of the clock
and of the random source it makes.
-/

namespace BonsaiChain

/-- `issued_key_t`. -/
structure IssuedKey where
  keyId : CString
  agentPubKey : CString
  ricardianHash : CString
  identityId : CString
  envelope : AuthorizationEnvelope
  createdAt : Int
  deriving DecidableEq, Repr

/-- `stored_key_t`. -/
structure StoredKey where
  pub : IssuedKey
  secretHash : Bytes
  secretHashHex : CString
  accountant : WindowAccountant
  revokedLocally : Bool
  deriving DecidableEq, Repr

/-- `key_broker_s` without the oracle and the clock, which each call is given. -/
structure KeyBroker where
  keys : List StoredKey
  deriving DecidableEq, Repr

/-- `authorization_request_t`. -/
structure AuthorizationRequest where
  secret : Option CString
  scope : Option CString
  amount : Int

/-- `authorization_decision_t`. -/
structure AuthorizationDecision where
  allowed : Bool
  reason : Option CString
  keyId : Option CString
  charge : Option ChargeResult
  deriving DecidableEq, Repr

/-- `key_broker_issue_args_t`; a null string is stored as the empty one. -/
structure IssueArgs where
  agentPubKey : Option CString
  ricardianHash : Option CString
  identityId : Option CString
  envelope : AuthorizationEnvelope

/-- `key_broker_issue_from_chain_args_t`. -/
structure IssueFromChainArgs where
  identityId : Option CString
  identityVout : UInt32
  expectedLockingScriptHex : Option CString
  agentPubKey : Option CString
  ricardianHash : Option CString
  params : IdentityParams
  scopes : List CString

/-- What `rand_bytes` and `rand_bytes_secure` give one `issue` call; `none` is a failure. -/
structure IssueRandom where
  idRaw : Option {bs : Bytes // bs.length = 16}
  secRaw : Option {bs : Bytes // bs.length = 24}

/-- `revocation_oracle_t.is_revoked` over the oracle's state. -/
abbrev Ask (σ : Type) := σ → CString → Except Err Bool × σ

namespace KeyBroker

def new : KeyBroker := ⟨[]⟩

section Lookup

/-- The position of the first key with this id. -/
def findByKeyId (b : KeyBroker) (keyId : Option CString) : Option ℕ :=
  keyId.bind fun keyId => b.keys.findIdx? fun k => k.pub.keyId == keyId

/-- The position of the first key stored under the hash of the secret, after a second comparison
of the hash itself. -/
def lookupBySecret (sha256 : Bytes → Bytes) (b : KeyBroker) (secret : Option CString) :
    Option (ℕ × StoredKey) :=
  secret.bind fun secret =>
    (b.keys.findIdx? fun k => k.secretHashHex == hexEncode (sha256 secret)).bind fun i =>
      b.keys[i]?.bind fun k => if k.secretHash = sha256 secret then some (i, k) else none

def setKey (b : KeyBroker) (i : ℕ) (k : StoredKey) : KeyBroker := ⟨b.keys.set i k⟩

end Lookup

section Issue

/-- `key_broker_issue`: the public key and the secret, or an error that leaves the broker as it
was. -/
def issue (sha256 : Bytes → Bytes) (b : KeyBroker) (args : IssueArgs) (rand : IssueRandom)
    (now : Int) : Except Err (IssuedKey × CString) × KeyBroker :=
  match rand.idRaw, rand.secRaw with
  | none, _ => (.error .ecrypto, b)
  | some _, none => (.error .ecrypto, b)
  | some idRaw, some secRaw =>
    let secret := ascii "pk_" ++ hexEncode secRaw.val
    let secretHash := sha256 secret
    let pub : IssuedKey := ⟨hexEncode idRaw.val, args.agentPubKey.getD [],
      args.ricardianHash.getD [], args.identityId.getD [], args.envelope, now⟩
    let sk : StoredKey := ⟨pub, secretHash, hexEncode secretHash, .init, false⟩
    (.ok (pub, secret), ⟨b.keys ++ [sk]⟩)

/-- The checks of `key_broker_issue_from_chain` before the oracle is asked: the reason of the first
that fails. -/
def bindingCheck (view : IdentityChainView) (args : IssueFromChainArgs) : Option CString :=
  match verifyIdentityScriptOnChain view args.identityId args.identityVout
      args.expectedLockingScriptHex with
  | some reason => some reason
  | none =>
    let ricardianHash := args.ricardianHash.getD []
    let agentPubKey := args.agentPubKey.getD []
    let scriptLc := hexToLower (args.expectedLockingScriptHex.getD [])
    if !isSha256Hex ricardianHash then
      some (ascii "ricardianHash is malformed (expected 64 hex chars / 32 bytes)")
    else if !isPubkeyHex agentPubKey then
      some (ascii ("agentPubKey is malformed (expected a 33-byte compressed pubkey: "
        ++ "66 hex chars, 02/03 prefix)"))
    else if ¬ hexToLower ricardianHash <:+: scriptLc then
      some (ascii "ricardianHash is not present in the verified identity script")
    else if ¬ hexToLower agentPubKey <:+: scriptLc then
      some (ascii "agentPubKey is not present in the verified identity script")
    else none

/-- `key_broker_issue_from_chain`: an error carries its code and the verbatim reason. -/
def issueFromChain {σ : Type} (sha256 : Bytes → Bytes) (ask : Ask σ) (b : KeyBroker) (o : σ)
    (args : IssueFromChainArgs) (view : IdentityChainView) (rand : IssueRandom) (now : Int) :
    Except (Err × CString) (IssuedKey × CString) × KeyBroker × σ :=
  match bindingCheck view args with
  | some reason => (.error (.ebinding, reason), b, o)
  | none =>
    match ask o (args.identityId.getD []) with
    | (.error e, o) =>
      (.error (.ebinding, ascii "revocation state unavailable (fail-closed): " ++ e.name), b, o)
    | (.ok true, o) => (.error (.ebinding, ascii "identity is revoked/dissolved on-chain"), b, o)
    | (.ok false, o) =>
      match issue sha256 b ⟨args.agentPubKey, args.ricardianHash, args.identityId,
          envelopeFromIdentity args.params args.scopes⟩ rand now with
      | (.error e, b) => (.error (e, []), b, o)
      | (.ok r, b) => (.ok r, b, o)

end Issue

section Authorize

def deny (reason : CString) (sk : Option StoredKey) : AuthorizationDecision :=
  ⟨false, some reason, sk.map fun k => k.pub.keyId, none⟩

/-- The scope reason is kept in a buffer of 512 bytes. -/
def scopeReason (scope : Option CString) : CString :=
  (ascii "scope not authorised: " ++ scope.getD []).take 511

def authorize {σ : Type} (sha256 : Bytes → Bytes) (ask : Ask σ) (b : KeyBroker) (o : σ)
    (req : AuthorizationRequest) (now : Int) : AuthorizationDecision × KeyBroker × σ :=
  match b.lookupBySecret sha256 req.secret with
  | none => (deny (ascii "unknown or invalid key") none, b, o)
  | some (i, sk) =>
    if sk.revokedLocally then (deny (ascii "key revoked") (some sk), b, o)
    else
      match ask o sk.pub.identityId with
      | (.error _, o) =>
        (deny (ascii "on-chain revocation state unavailable (fail-closed)") (some sk), b, o)
      | (.ok true, o) =>
        (deny (ascii "identity revoked on-chain") (some sk),
          b.setKey i { sk with revokedLocally := true }, o)
      | (.ok false, o) =>
        if !req.scope.any fun scope => sk.pub.envelope.scopes.contains scope then
          (deny (scopeReason req.scope) (some sk), b, o)
        else
          let (charge, accountant) := sk.accountant.charge sk.pub.envelope req.amount now
          (⟨charge.allowed, charge.reason, some sk.pub.keyId, some charge⟩,
            b.setKey i { sk with accountant }, o)

def revokeLocally (b : KeyBroker) (keyId : Option CString) : Bool × KeyBroker :=
  match b.findByKeyId keyId with
  | none => (false, b)
  | some i => (true, ⟨b.keys.modify i fun k => { k with revokedLocally := true }⟩)

def getKey (b : KeyBroker) (keyId : Option CString) : Option IssuedKey :=
  (b.findByKeyId keyId).bind fun i => b.keys[i]?.map StoredKey.pub

end Authorize

end KeyBroker

end BonsaiChain
