import BonsaiChain.Proofs.BuilderCall
import BonsaiChain.Proofs.Covenant
import BonsaiChain.PublisherTeaCovenant

/-!
# The PublisherTea builders and their covenant

Three of the four state-keeping builders date the receipt with the announce time of the state where
the covenant dates it with the spend time, so they build what the covenant requires exactly when the
two times are equal.
-/

namespace BonsaiChain

open Lib

section Methods

inductive PublisherMethod where
  | announceRelease (bundleHash fileSetRoot : Block 32)
  | activateRelease (activateDigest : Block 32)
  | cancelPending
  | invalidateRelease (activateDigest : Block 32)

/-- The contract on chain whose state section is the instance's state. -/
def PublisherTea.deployed (c : PublisherTea) (code : Bytes) : Covenant.PublisherTea :=
  ⟨code, c.artifact.stateProps, c.params.publisherHash, c.state⟩

namespace PublisherMethod

variable (P : Prims) (c : PublisherTea) (utxo : ContractUtxo) (now : ℤ) (opts : ArpBuilderOpts)

/-- The method's builder on a fresh transaction. -/
def build : PublisherMethod → Except Err Tx
  | announceRelease bundleHash fileSetRoot =>
    buildArpAnnounce P c utxo bundleHash fileSetRoot now opts txBuilderInit
  | activateRelease activateDigest =>
    buildArpActivate P c utxo activateDigest now opts txBuilderInit
  | cancelPending => buildArpCancel P c utxo now opts txBuilderInit
  | invalidateRelease activateDigest =>
    buildArpInvalidate P c utxo activateDigest now opts txBuilderInit

/-- The byte string the covenant method hashes. -/
def outputs (this : Covenant.PublisherTea) (ctx : Covenant.Ctx) : PublisherMethod → Option Bytes
  | announceRelease bundleHash fileSetRoot =>
    this.announceRelease P.sha256 ctx bundleHash fileSetRoot
  | activateRelease activateDigest => this.activateRelease P.sha256 ctx activateDigest
  | cancelPending => this.cancelPending P.sha256 ctx
  | invalidateRelease activateDigest => this.invalidateRelease P.sha256 ctx activateDigest

/-- The receipt the covenant method commits to at a spend time. -/
def receipt (this : Covenant.PublisherTea) (time : ℤ) : PublisherMethod → Option Bytes
  | announceRelease bundleHash fileSetRoot => this.announceReceipt bundleHash fileSetRoot time
  | activateRelease activateDigest => this.activateReceipt activateDigest time
  | cancelPending => this.cancelReceipt time
  | invalidateRelease activateDigest => this.invalidateReceipt activateDigest time

/-- The state the method leaves at a spend time. -/
def next (s : PublisherTeaState) (time : ℤ) : PublisherMethod → PublisherTeaState
  | announceRelease bundleHash fileSetRoot =>
    ⟨bundleHash.1, fileSetRoot.1, time, s.releaseCount⟩
  | activateRelease _ => ⟨zero32, zero32, 0, s.releaseCount + 1⟩
  | cancelPending => ⟨zero32, zero32, 0, s.releaseCount⟩
  | invalidateRelease _ => s

def isAnnounce : PublisherMethod → Bool
  | announceRelease _ _ => true
  | _ => false

/-- The time the builder puts into the receipt. -/
def builderTime (m : PublisherMethod) : ℤ :=
  if m.isAnnounce then now else c.state.pendingAnnounceTime

end PublisherMethod

/-- The transaction is the one the covenant method requires of a spend of `script` at `now`. -/
def RefinesPublisherTea (P : Prims) (c : PublisherTea) (script : Bytes) (utxo : ContractUtxo)
    (now : ℤ) (opts : ArpBuilderOpts) (m : PublisherMethod) (tx : Tx) : Prop :=
  (tx.locktime.toNat : ℤ) = now
    ∧ (∃ i ∈ tx.inputs.head?, i.prevTxidDisplay = hexToLower utxo.txidDisplay
      ∧ i.vout = utxo.vout ∧ i.sequence < 0xffffffff)
    ∧ ∃ code ∈ Covenant.codePart script,
      m.outputs P (c.deployed code)
          ⟨utxo.value.toNat, now, (changeAmount 2 tx).toNat,
            opts.request.hash.getD (Block.fill 20 0)⟩
        = some (tx.outputs.flatMap printTxOut)

instance (P : Prims) (c : PublisherTea) (script : Bytes) (utxo : ContractUtxo) (now : ℤ)
    (opts : ArpBuilderOpts) (m : PublisherMethod) (tx : Tx) :
    Decidable (RefinesPublisherTea P c script utxo now opts m tx) :=
  inferInstanceAs (Decidable (_ ∧ _ ∧ _))

end Methods

section Receipts

variable {c : PublisherTea} {code pre : Bytes}

/-- The tags and the zero hash of the covenant are those of the builders. -/
theorem literals_eq :
    Covenant.hexLiteral (ascii "415250315f414e4e4f554e43455f5631") = announceTag ∧
      Covenant.hexLiteral (ascii "415250315f414354524350545f5631") = actrcptTag ∧
      Covenant.hexLiteral (ascii "415250315f43414e43454c5f5631") = cancelTag ∧
      Covenant.hexLiteral (ascii "415250315f494e56414c49444154455f5631") = invalidateTag ∧
      Covenant.PublisherTea.zero = zero32 := by
  decide +kernel

theorem announceReceipt_of_ok {bundleHash fileSetRoot : Block 32} {now : ℤ}
    (h : publisherTeaAnnounceReceipt c bundleHash fileSetRoot now = .ok pre) :
    (c.deployed code).announceReceipt bundleHash fileSetRoot now = some pre := by
  simp only [publisherTeaAnnounceReceipt, bind_eq_ok, pure_eq_ok, Covenant.sized_eight,
    Covenant.sized_four] at h
  obtain ⟨-, -, rc, hrc, now4, hnow, rfl⟩ := h
  simp [Covenant.PublisherTea.announceReceipt, PublisherTea.deployed, hrc, hnow, literals_eq.1]

theorem activateReceipt_of_ok {activateDigest : Block 32}
    (h : publisherTeaActivateReceipt c activateDigest = .ok pre) :
    (c.deployed code).activateReceipt activateDigest c.state.pendingAnnounceTime = some pre := by
  simp only [publisherTeaActivateReceipt, bind_eq_ok, pure_eq_ok, Covenant.sized_eight,
    Covenant.sized_four] at h
  obtain ⟨-, -, rc, hrc, now4, hnow, rfl⟩ := h
  simp [Covenant.PublisherTea.activateReceipt, PublisherTea.deployed, hrc, hnow, literals_eq.2.1]

theorem cancelReceipt_of_ok (h : publisherTeaCancelReceipt c = .ok pre) :
    (c.deployed code).cancelReceipt c.state.pendingAnnounceTime = some pre := by
  simp only [publisherTeaCancelReceipt, bind_eq_ok, pure_eq_ok, Covenant.sized_four] at h
  obtain ⟨-, -, -, -, now4, hnow, rfl⟩ := h
  simp [Covenant.PublisherTea.cancelReceipt, PublisherTea.deployed, hnow, literals_eq.2.2.1]

theorem invalidateReceipt_of_ok {activateDigest : Block 32}
    (h : publisherTeaInvalidateReceipt c activateDigest = .ok pre) :
    (c.deployed code).invalidateReceipt activateDigest c.state.pendingAnnounceTime = some pre := by
  simp only [publisherTeaInvalidateReceipt, bind_eq_ok, pure_eq_ok, Covenant.sized_four] at h
  obtain ⟨-, -, now4, hnow, rfl⟩ := h
  simp [Covenant.PublisherTea.invalidateReceipt, PublisherTea.deployed, hnow, literals_eq.2.2.2.1]

end Receipts

section Method

variable {P : Prims} {c : PublisherTea} {utxo : ContractUtxo} {now : ℤ} {opts : ArpBuilderOpts}
  {m : PublisherMethod} {tx : Tx}

/-- What a successful builder call builds: the covenant's next state, and the covenant's receipt at
the builder's time. -/
theorem PublisherMethod.build_eq_ok (hok : m.build P c utxo now opts = .ok tx) (code : Bytes) :
    ∃ pre script change,
      m.receipt (c.deployed code) (m.builderTime c now) = some pre
        ∧ publisherTeaLockingScript { c with state := m.next c.state now } false = .ok script
        ∧ Built P utxo 0 opts.funding
          [⟨utxo.value, script⟩, ⟨0, receiptScript (P.sha256 pre)⟩] opts.request
          (fundingTotal opts.funding) (u32OfInt now) tx change := by
  cases m with
  | announceRelease bundleHash fileSetRoot =>
    simp only [build, buildArpAnnounce, bind_eq_ok] at hok
    obtain ⟨pre, hpre, hok⟩ := hok
    obtain ⟨script, change, hscript, hb⟩ := stateAndReceiptTx_eq_ok hok
    exact ⟨pre, script, change, announceReceipt_of_ok hpre, hscript, hb⟩
  | activateRelease activateDigest =>
    simp only [build, buildArpActivate, bind_eq_ok] at hok
    obtain ⟨pre, hpre, hok⟩ := hok
    obtain ⟨script, change, hscript, hb⟩ := stateAndReceiptTx_eq_ok hok
    exact ⟨pre, script, change, activateReceipt_of_ok hpre, hscript, hb⟩
  | cancelPending =>
    simp only [build, buildArpCancel, bind_eq_ok] at hok
    obtain ⟨pre, hpre, hok⟩ := hok
    obtain ⟨script, change, hscript, hb⟩ := stateAndReceiptTx_eq_ok hok
    exact ⟨pre, script, change, cancelReceipt_of_ok hpre, hscript, hb⟩
  | invalidateRelease activateDigest =>
    simp only [build, buildArpInvalidate, bind_eq_ok] at hok
    obtain ⟨pre, hpre, hok⟩ := hok
    obtain ⟨script, change, hscript, hb⟩ := stateAndReceiptTx_eq_ok hok
    exact ⟨pre, script, change, invalidateReceipt_of_ok hpre, hscript, hb⟩

/-- A method's outputs are its receipt's and its next state's. -/
theorem PublisherMethod.outputs_eq {this : Covenant.PublisherTea} {ctx : Covenant.Ctx} :
    m.outputs P this ctx = (m.receipt this ctx.locktime).bind fun r =>
      Covenant.PublisherTea.stateAndReceiptOutputs
        { this with state := m.next this.state ctx.locktime } ctx (P.sha256 r) := by
  cases m with
  | announceRelease bundleHash fileSetRoot => rfl
  | activateRelease activateDigest =>
    simp only [outputs, Covenant.PublisherTea.activateRelease, literals_eq.2.2.2.2]
    rfl
  | cancelPending =>
    simp only [outputs, Covenant.PublisherTea.cancelPending, literals_eq.2.2.2.2]
    rfl
  | invalidateRelease activateDigest => rfl

/-- A receipt that can be written at one time can be written at every time of four bytes. -/
theorem PublisherMethod.receipt_isSome {this : Covenant.PublisherTea} {t t' : ℤ} {p : Bytes}
    (h : m.receipt this t = some p) (h0 : 0 ≤ t') (hlt : t' < 2 ^ 31) :
    ∃ q, m.receipt this t' = some q := by
  have hnow : Covenant.num2bin t' 4 = some (leBytes 4 t'.toNat) := by
    rw [← Int.toNat_of_nonneg h0]
    exact Covenant.num2bin_natCast (by omega) (by omega)
  cases m with
  | announceRelease bundleHash fileSetRoot =>
    rcases hrc : Covenant.num2bin this.state.releaseCount 8 with _ | rc
    · simp [receipt, Covenant.PublisherTea.announceReceipt, hrc] at h
    · simp [receipt, Covenant.PublisherTea.announceReceipt, hrc, hnow]
  | activateRelease activateDigest =>
    rcases hrc : Covenant.num2bin this.state.releaseCount 8 with _ | rc
    · simp [receipt, Covenant.PublisherTea.activateReceipt, hrc] at h
    · simp [receipt, Covenant.PublisherTea.activateReceipt, hrc, hnow]
  | cancelPending => simp [receipt, Covenant.PublisherTea.cancelReceipt, hnow]
  | invalidateRelease activateDigest => simp [receipt,
    Covenant.PublisherTea.invalidateReceipt, hnow]

/-- A receipt commits to its time. -/
theorem PublisherMethod.receipt_inj {this : Covenant.PublisherTea} {t t' : ℤ} {p : Bytes}
    (h : m.receipt this t = some p) (h' : m.receipt this t' = some p) : t = t' := by
  have key : ∀ (front : Bytes) (n n' : Bytes), Covenant.num2bin t 4 = some n →
      Covenant.num2bin t' 4 = some n' → front ++ n = p → front ++ n' = p → t = t' := by
    intro front n n' hn hn' hp hp'
    obtain rfl := List.append_cancel_left (hp.trans hp'.symm)
    exact Covenant.num2bin_inj hn hn'
  cases m with
  | announceRelease bundleHash fileSetRoot =>
    simp only [receipt, Covenant.PublisherTea.announceReceipt, Option.bind_eq_bind,
      Option.bind_eq_some_iff, pure, Option.some.injEq] at h h'
    obtain ⟨rc, hrc, n, hn, hp⟩ := h
    obtain ⟨rc', hrc', n', hn', hp'⟩ := h'
    obtain rfl := Option.some.inj (hrc.symm.trans hrc')
    exact key _ n n' hn hn' hp hp'
  | activateRelease activateDigest =>
    simp only [receipt, Covenant.PublisherTea.activateReceipt, Option.bind_eq_bind,
      Option.bind_eq_some_iff, pure, Option.some.injEq] at h h'
    obtain ⟨rc, hrc, n, hn, hp⟩ := h
    obtain ⟨rc', hrc', n', hn', hp'⟩ := h'
    obtain rfl := Option.some.inj (hrc.symm.trans hrc')
    exact key _ n n' hn hn' hp hp'
  | cancelPending =>
    simp only [receipt, Covenant.PublisherTea.cancelReceipt, Option.bind_eq_bind,
      Option.bind_eq_some_iff, pure, Option.some.injEq] at h h'
    obtain ⟨n, hn, hp⟩ := h
    obtain ⟨n', hn', hp'⟩ := h'
    exact key _ n n' hn hn' hp hp'
  | invalidateRelease activateDigest =>
    simp only [receipt, Covenant.PublisherTea.invalidateReceipt, Option.bind_eq_bind,
      Option.bind_eq_some_iff, pure, Option.some.injEq] at h h'
    obtain ⟨n, hn, hp⟩ := h
    obtain ⟨n', hn', hp'⟩ := h'
    exact key _ n n' hn hn' hp hp'

/-- A receipt output shows its hash. -/
theorem receiptOutput_inj {a b : Block 32}
    (h : printTxOut ⟨0, receiptScript a⟩ = printTxOut ⟨0, receiptScript b⟩) : a = b := by
  have hlen : ∀ a : Block 32, (receiptScript a).length = 35 := by
    intro a
    simp [receiptScript, a.2]
  simp only [printTxOut, printSized, hlen, List.append_cancel_left_eq] at h
  exact Subtype.ext (List.append_cancel_left h)

theorem stateAndReceiptOutputs_eq {this : Covenant.PublisherTea} {ctx : Covenant.Ctx}
    {receipt : Block 32} {script : Bytes} {change : UInt64} {req : ChangeRequest}
    (hscript : Covenant.getStateScript this.code this.stateProps
      (publisherTeaStateValues this.state) = some script)
    (hvalue : ctx.value = utxo.value.toNat) (hamount : ctx.changeAmount = change.toNat)
    (hunreq : req.hash = none → change = 0)
    (haddr : ∀ h, req.hash = some h → ctx.changeAddress = h) :
    this.stateAndReceiptOutputs ctx receipt
      = some (printTxOut ⟨utxo.value, script⟩ ++ printTxOut ⟨0, receiptScript receipt⟩
        ++ (req.outputs change).flatMap printTxOut) := by
  have hreceipt := Covenant.buildOutput_toNat (receiptScript receipt) 0
  simp only [UInt64.toNat_zero, Nat.cast_zero] at hreceipt
  simp only [Covenant.PublisherTea.stateAndReceiptOutputs, Covenant.buildStateOutput, hscript,
    hvalue, Covenant.buildOutput_toNat, Covenant.buildOpreturnScript_hash, hreceipt,
    Option.bind_eq_bind, Option.bind_some]
  exact Covenant.withChange_outputs hamount hunreq haddr

/-- On a deployed PublisherTea with a state section, a successful builder call builds what the
covenant method requires if and only if it announces or the spend time is the announce time of the
state, where SHA-256 separates the receipts of the two times. -/
theorem publisherTea_refines_iff {isGenesis : Bool} {onChain : Bytes}
    (hstateful : c.artifact.stateful = true)
    (honChain : publisherTeaLockingScript c isGenesis = .ok onChain)
    (hnow : 0 ≤ now) (hnow' : now < 2 ^ 31)
    (hsha : ∀ p q, m.receipt (c.deployed []) now = some p →
      m.receipt (c.deployed []) c.state.pendingAnnounceTime = some q →
      P.sha256 p = P.sha256 q → p = q)
    (hok : m.build P c utxo now opts = .ok tx) :
    RefinesPublisherTea P c onChain utxo now opts m tx ↔
      m.isAnnounce = true ∨ now = c.state.pendingAnnounceTime := by
  obtain ⟨code, hcode, hpart⟩ := Covenant.codePart_reconstruct hstateful honChain
  have hreceipt : ∀ time, m.receipt (c.deployed code) time = m.receipt (c.deployed []) time := by
    intro time
    cases m <;> rfl
  obtain ⟨pre, script, change, hpre, hscript, hb⟩ := PublisherMethod.build_eq_ok hok code
  obtain ⟨p, hp⟩ := PublisherMethod.receipt_isSome hpre hnow hnow'
  have hamount := hb.changeAmount_eq (n := 2) rfl
  have hlock : (tx.locktime.toNat : ℤ) = now := by
    rw [hb.tx_eq]
    show ((u32OfInt now).toNat : ℤ) = now
    rw [u32OfInt, UInt32.toNat_ofNat']
    omega
  have hinput : ∃ i ∈ tx.inputs.head?, i.prevTxidDisplay = hexToLower utxo.txidDisplay
      ∧ i.vout = utxo.vout ∧ i.sequence < 0xffffffff := by
    rw [hb.tx_eq]
    refine ⟨contractInput utxo 0, rfl, rfl, rfl, ?_⟩
    show (0 : UInt32) < 0xffffffff
    decide
  have hstate : Covenant.getStateScript code c.artifact.stateProps
      (publisherTeaStateValues (m.next c.state now)) = some script :=
    Covenant.getStateScript_eq_some hstateful hcode hscript
  have houtputs : m.outputs P (c.deployed code)
      ⟨utxo.value.toNat, now, (changeAmount 2 tx).toNat,
        opts.request.hash.getD (Block.fill 20 0)⟩
      = some (printTxOut ⟨utxo.value, script⟩ ++ printTxOut ⟨0, receiptScript (P.sha256 p)⟩
        ++ (opts.request.outputs change).flatMap printTxOut) := by
    rw [PublisherMethod.outputs_eq, hp, hamount]
    refine stateAndReceiptOutputs_eq hstate rfl rfl hb.unrequested ?_
    intro h hh
    simp [hh]
  have hbuilt : tx.outputs.flatMap printTxOut
      = printTxOut ⟨utxo.value, script⟩ ++ printTxOut ⟨0, receiptScript (P.sha256 pre)⟩
        ++ (opts.request.outputs change).flatMap printTxOut := by
    rw [hb.tx_eq]
    simp
  have hsame : RefinesPublisherTea P c onChain utxo now opts m tx ↔ P.sha256 p = P.sha256 pre := by
    refine ⟨?_, ?_⟩
    · rintro ⟨-, -, code', hpart', hout⟩
      obtain rfl := Option.some.inj (hpart.symm.trans hpart')
      rw [houtputs, hbuilt, Option.some.injEq, List.append_cancel_right_eq,
        List.append_cancel_left_eq] at hout
      exact receiptOutput_inj hout
    · intro heq
      refine ⟨hlock, hinput, code, hpart, ?_⟩
      rw [houtputs, hbuilt, heq]
  rw [hsame]
  unfold PublisherMethod.builderTime at hpre
  by_cases hann : m.isAnnounce = true
  · rw [if_pos hann, hp] at hpre
    simp [hann, Option.some.inj hpre]
  · rw [if_neg hann] at hpre
    simp only [hann, Bool.false_eq_true, false_or]
    refine ⟨fun heq => ?_, fun heq => ?_⟩
    · rw [hreceipt] at hp hpre
      obtain rfl := hsha p pre hp hpre heq
      exact PublisherMethod.receipt_inj hp hpre
    · rw [← heq, hp] at hpre
      rw [Option.some.inj hpre]

end Method

section Examples

open BuilderCall (examplePublisher exampleUtxo exampleFunding exampleChange)

def exampleOpts : ArpBuilderOpts := ⟨exampleFunding, some exampleChange, true⟩

def exampleMethod : PublisherMethod := .invalidateRelease (Block.fill 32 0x22)

/-- The example after its first announcement. -/
def exampleAnnounced : PublisherTea :=
  { examplePublisher with
    state := ⟨List.replicate 32 0x44, List.replicate 32 0x55, 1700000000, 1⟩ }

/-- An invalidation refines the covenant at the time of the announcement and not an hour later. -/
theorem publisherTea_refines_iff_announced :
    ∃ onChain, publisherTeaLockingScript exampleAnnounced false = .ok onChain
      ∧ (∃ tx, exampleMethod.build codePrims exampleAnnounced exampleUtxo 1700000000 exampleOpts
          = .ok tx
        ∧ RefinesPublisherTea codePrims exampleAnnounced onChain exampleUtxo 1700000000 exampleOpts
          exampleMethod tx)
      ∧ ∃ tx, exampleMethod.build codePrims exampleAnnounced exampleUtxo 1700003600 exampleOpts
          = .ok tx
        ∧ ¬RefinesPublisherTea codePrims exampleAnnounced onChain exampleUtxo 1700003600 exampleOpts
          exampleMethod tx := by
  obtain ⟨onChain, hscript, ⟨tx, hok, -⟩, tx', hok', -⟩ :
      ∃ onChain, publisherTeaLockingScript exampleAnnounced false = .ok onChain
        ∧ (∃ tx, exampleMethod.build codePrims exampleAnnounced exampleUtxo 1700000000 exampleOpts
            = .ok tx ∧ True)
        ∧ ∃ tx, exampleMethod.build codePrims exampleAnnounced exampleUtxo 1700003600 exampleOpts
            = .ok tx ∧ True := by
    decide +kernel
  have hapart : (exampleMethod.receipt (exampleAnnounced.deployed []) 1700003600).map
        codePrims.sha256
      ≠ (exampleMethod.receipt (exampleAnnounced.deployed []) 1700000000).map
        codePrims.sha256 := by
    decide +kernel
  refine ⟨onChain, hscript, ⟨tx, hok, ?_⟩, tx', hok', ?_⟩
  · refine (publisherTea_refines_iff rfl hscript (by decide) (by decide) ?_ hok).mpr (.inr rfl)
    intro p q hp hq _
    exact Option.some.inj (hp.symm.trans hq)
  · rw [publisherTea_refines_iff rfl hscript (by decide) (by decide) ?_ hok']
    · decide
    · intro p q hp hq hpq
      have hq' : exampleMethod.receipt (exampleAnnounced.deployed []) 1700000000 = some q := hq
      exact absurd (by rw [hp, hq', Option.map_some, Option.map_some, hpq]) hapart

/-- An invalidation at 1700000000 of a state announced at 0 commits its receipt to 0. -/
theorem invalidate_dates_receipt_zero :
    (0 : ℤ) ≤ 1700000000 ∧ (1700000000 : ℤ) < 2 ^ 31
      ∧ ∃ onChain, publisherTeaLockingScript examplePublisher true = .ok onChain
        ∧ ∃ tx, exampleMethod.build codePrims examplePublisher exampleUtxo 1700000000 exampleOpts
            = .ok tx
          ∧ ¬RefinesPublisherTea codePrims examplePublisher onChain exampleUtxo 1700000000
            exampleOpts exampleMethod tx := by
  decide +kernel

end Examples

end BonsaiChain
