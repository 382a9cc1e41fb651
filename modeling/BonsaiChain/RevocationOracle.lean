import BonsaiChain.ChainSource

/-!
# The chain revocation oracle

`chain_revocation_oracle_is_revoked` walks an identity forward from its last known live tip. It
remembers revoked identities for good and the tip of a live walk, and reports a failed lookup or an
exhausted hop budget as an error.
-/

namespace BonsaiChain

open Lib

/-- `live_tip_entry_t`. -/
structure LiveTip where
  genesis : CString
  tip : CString
  deriving DecidableEq, Repr

/-- `chain_revocation_oracle_s` without its source, which each call is given. -/
structure RevocationOracle where
  identityVout : UInt32
  maxHops : ℕ
  revoked : List CString
  liveTips : List LiveTip
  deriving DecidableEq, Repr

/-- `chain_revocation_oracle_opts_t`; an absent field takes its default. -/
structure RevocationOracleOpts where
  identityVout : Option UInt32 := none
  maxHops : Option ℕ := none

namespace RevocationOracle

def defaultVout : UInt32 := 0

def defaultMaxHops : ℕ := 100000

def new (opts : RevocationOracleOpts) : RevocationOracle :=
  ⟨opts.identityVout.getD defaultVout, opts.maxHops.getD defaultMaxHops, [], []⟩

def revokedHas (o : RevocationOracle) (genesis : CString) : Bool := o.revoked.contains genesis

def revokedAdd (o : RevocationOracle) (genesis : CString) : RevocationOracle :=
  if o.revokedHas genesis then o else { o with revoked := o.revoked ++ [genesis] }

def liveTipFind (o : RevocationOracle) (genesis : CString) : Option LiveTip :=
  o.liveTips.find? fun e => e.genesis == genesis

/-- Replace the tip of the first entry of `genesis`. -/
def replaceTip (genesis tip : CString) : List LiveTip → List LiveTip
  | [] => []
  | e :: es => if e.genesis == genesis then { e with tip } :: es else e :: replaceTip genesis tip es

def liveTipSet (o : RevocationOracle) (genesis tip : CString) : RevocationOracle :=
  match o.liveTipFind genesis with
  | some _ => { o with liveTips := replaceTip genesis tip o.liveTips }
  | none => { o with liveTips := o.liveTips ++ [⟨genesis, tip⟩] }

/-- The first entry of `genesis` is overwritten with the last entry, which is then dropped. -/
def liveTipDelete (o : RevocationOracle) (genesis : CString) : RevocationOracle :=
  match o.liveTips.findIdx? (fun e => e.genesis == genesis), o.liveTips.getLast? with
  | some i, some last => { o with liveTips := (o.liveTips.set i last).dropLast }
  | _, _ => o

/-- How the walk of `is_revoked` ends. -/
inductive WalkEnd where
  | live (tip : CString)
  | revoked
  | failed (e : Err)
  deriving DecidableEq, Repr

/-- One hop: the source is asked for the spender of the current outpoint and for its raw bytes. -/
def hop (src : ChainSource) (vout : UInt32) (txid : CString) : WalkEnd ⊕ CString :=
  match src.getSpendingTxid txid vout with
  | .error e => .inl (.failed e)
  | .ok none => .inl (.live txid)
  | .ok (some spender) =>
    match src.getRawTx spender with
    | .error e => .inl (.failed e)
    | .ok none => .inl (.failed .enet)
    | .ok (some raw) => if isTerminalSpend raw then .inl .revoked else .inr spender

/-- The walk loop over a source whose answers may differ from hop to hop. -/
def walk (src : ℕ → ChainSource) (vout : UInt32) (maxHops : ℕ) (start : CString) : WalkEnd :=
  match loop (fun i => hop (src i) vout) maxHops 0 start with
  | .inl e => e
  | .inr _ => .failed .ehoplimit

/-- `chain_revocation_oracle_is_revoked`: the answer and the oracle afterwards. -/
def isRevoked (src : ℕ → ChainSource) (o : RevocationOracle) (genesis : CString) :
    Except Err Bool × RevocationOracle :=
  if o.revokedHas genesis then (.ok true, o)
  else
    let start := ((o.liveTipFind genesis).map LiveTip.tip).getD genesis
    match walk src o.identityVout o.maxHops start with
    | .failed e => (.error e, o)
    | .live tip => (.ok false, o.liveTipSet genesis tip)
    | .revoked => (.ok true, (o.revokedAdd genesis).liveTipDelete genesis)

end RevocationOracle

end BonsaiChain
