import BonsaiChain.AgentTea
import BonsaiChain.Lib.Delimited
import BonsaiChain.Lib.Results
import BonsaiChain.Proofs.Covenant
import BonsaiChain.Proofs.Num2binWidth
import BonsaiChain.PublisherTea
import BonsaiChain.RicardianTea

/-!
# Messages with a domain tag

The receipts of publishers and what validators and guardians sign start with the tag of their kind.
No tag starts another, the fields behind a tag have known widths up to one at most, and the bytes of
a field are of one value, so that a message is of one kind and of one list of fields.
-/

namespace BonsaiChain

open Lib

section Messages

inductive MessageKind where
  | announce | activate | cancel | invalidate | agentAttestation | agentRecovery
  | ricardianAttestation
  deriving DecidableEq

def MessageKind.all : List MessageKind :=
  [.announce, .activate, .cancel, .invalidate, .agentAttestation, .agentRecovery,
    .ricardianAttestation]

def MessageKind.tag : MessageKind → Bytes
  | announce => announceTag
  | activate => actrcptTag
  | cancel => cancelTag
  | invalidate => invalidateTag
  | agentAttestation => agntAttestTag
  | agentRecovery => agntRecoverTag
  | ricardianAttestation => ascii "RTEA_ATTEST_V1"

/-- A field: bytes as they are, or an integer in as many bytes as are given or as it takes. -/
inductive MessageField where
  | raw (bs : Bytes)
  | sized (n : ℤ) (width : ℕ)
  | minimal (n : ℤ)
  deriving DecidableEq

inductive FieldShape where
  | raw (length : ℕ)
  | sized (width : ℕ)
  | minimal

def MessageField.shape : MessageField → FieldShape
  | raw bs => .raw bs.length
  | sized _ width => .sized width
  | minimal _ => .minimal

def MessageField.encode : MessageField → Except Err Bytes
  | raw bs => .ok bs
  | sized n width => int2bytestringSized n width
  | minimal n => .ok (int2bytestringMinimal n)

def FieldShape.width : FieldShape → Option ℕ
  | raw length => some length
  | sized width => some width
  | minimal => none

/-- The shapes of the fields of a kind, in order. -/
def MessageKind.shapes : MessageKind → List FieldShape
  | announce => [.raw 32, .raw 32, .raw 32, .sized 8, .sized 4]
  | activate => [.raw 32, .raw 32, .sized 8, .sized 4]
  | cancel | invalidate => [.raw 32, .raw 32, .sized 4]
  | agentAttestation | ricardianAttestation =>
    [.raw 32, .raw 33, .minimal, .sized 8, .sized 8, .raw 32]
  | agentRecovery => [.raw 32, .raw 33, .sized 8]

/-- A message and the arguments of the call that builds it. -/
inductive DomainMessage where
  | announce (c : PublisherTea) (bundleHash fileSetRoot : Block 32) (now : ℤ)
  | activate (c : PublisherTea) (activateDigest : Block 32)
  | cancel (c : PublisherTea)
  | invalidate (c : PublisherTea) (activateDigest : Block 32)
  | agentAttestation (ricardianHash : Block 32) (agent : Block 33)
    (validatorPubkey amount attestedLimit : ℤ) (receiptHash : Block 32)
  | agentRecovery (ricardianHash : Block 32) (newAgent : Block 33) (recoveryCount : ℤ)
  | ricardianAttestation (ricardianHash : Block 32) (agent : Block 33)
    (validatorPubkey amount attestedLimit : ℤ) (receiptHash : Block 32)

namespace DomainMessage

def kind : DomainMessage → MessageKind
  | announce .. => .announce
  | activate .. => .activate
  | cancel .. => .cancel
  | invalidate .. => .invalidate
  | agentAttestation .. => .agentAttestation
  | agentRecovery .. => .agentRecovery
  | ricardianAttestation .. => .ricardianAttestation

/-- What the call gives. -/
def bytes : DomainMessage → Except Err Bytes
  | announce c bundleHash fileSetRoot now =>
    publisherTeaAnnounceReceipt c bundleHash fileSetRoot now
  | activate c activateDigest => publisherTeaActivateReceipt c activateDigest
  | cancel c => publisherTeaCancelReceipt c
  | invalidate c activateDigest => publisherTeaInvalidateReceipt c activateDigest
  | agentAttestation ricardianHash agent validatorPubkey amount attestedLimit receiptHash =>
    agentTeaAttestationMsg ricardianHash agent validatorPubkey amount attestedLimit receiptHash
  | agentRecovery ricardianHash newAgent recoveryCount =>
    agentTeaRecoveryMsg ricardianHash.1 newAgent recoveryCount
  | ricardianAttestation ricardianHash agent validatorPubkey amount attestedLimit receiptHash =>
    ricardianTeaAttestationMsg ricardianHash agent validatorPubkey amount attestedLimit receiptHash

/-- What the message is about. -/
def fields : DomainMessage → List MessageField
  | announce c bundleHash fileSetRoot now =>
    [.raw c.params.publisherHash, .raw bundleHash, .raw fileSetRoot, .sized c.state.releaseCount 8,
      .sized now 4]
  | activate c activateDigest =>
    [.raw c.params.publisherHash, .raw activateDigest, .sized c.state.releaseCount 8,
      .sized c.state.pendingAnnounceTime 4]
  | cancel c =>
    [.raw c.params.publisherHash, .raw c.state.pendingBundleHash,
      .sized c.state.pendingAnnounceTime 4]
  | invalidate c activateDigest =>
    [.raw c.params.publisherHash, .raw activateDigest, .sized c.state.pendingAnnounceTime 4]
  | agentAttestation ricardianHash agent validatorPubkey amount attestedLimit receiptHash
  | ricardianAttestation ricardianHash agent validatorPubkey amount attestedLimit receiptHash =>
    [.raw ricardianHash, .raw agent, .minimal validatorPubkey, .sized amount 8,
      .sized attestedLimit 8, .raw receiptHash]
  | agentRecovery ricardianHash newAgent recoveryCount =>
    [.raw ricardianHash, .raw newAgent, .sized recoveryCount 8]

/-- The hashes that a contract holds in buffers have 32 bytes. -/
def Sized : DomainMessage → Prop
  | announce c .. | activate c .. | invalidate c .. => c.params.publisherHash.length = 32
  | cancel c => c.params.publisherHash.length = 32 ∧ c.state.pendingBundleHash.length = 32
  | agentAttestation .. | agentRecovery .. | ricardianAttestation .. => True

end DomainMessage

end Messages

section Fields

variable {f f' : MessageField} {n : ℤ} {w : ℕ} {p : Bytes}

theorem int2bytestringSized_spec (h : int2bytestringSized n w = .ok p) :
    p.length = w ∧ smValue p = n := by
  rcases w with _ | w
  · simp only [int2bytestringSized, bind_eq_ok, bnToLeBytes_eq_ok] at h
    obtain ⟨tmp, ⟨-, -, rfl⟩, h⟩ := h
    rw [if_neg (lt_irrefl 0), error_ite_eq_ok, not_ne_iff] at h
    obtain ⟨rfl, h⟩ := h
    obtain rfl := Except.ok.inj h
    exact ⟨rfl, rfl⟩
  · obtain ⟨hn, rfl⟩ := int2bytestringSized_succ_eq_ok.1 h
    exact ⟨leBytes_length _ _, smValue_signedBytes hn⟩

theorem hasWidth_encode (h : f.encode = .ok p) : HasWidth p f.shape.width := by
  intro k hk
  cases f with
  | raw bs =>
    obtain rfl : bs = p := Except.ok.inj h
    exact Option.some.inj hk
  | sized z width =>
    rw [(int2bytestringSized_spec h).1]
    exact Option.some.inj hk
  | minimal z => simp [MessageField.shape, FieldShape.width] at hk

/-- The bytes of a field are of one value. -/
theorem encode_inj (hshape : f.shape = f'.shape) (h : f.encode = .ok p) (h' : f'.encode = .ok p) :
    f = f' := by
  cases f with
  | raw bs =>
    cases f' with
    | raw bs' => rw [Except.ok.inj (h.trans h'.symm)]
    | sized _ _ => cases hshape
    | minimal _ => cases hshape
  | sized n width =>
    cases f' <;> cases hshape
    rw [← (int2bytestringSized_spec h).2, ← (int2bytestringSized_spec h').2]
  | minimal n =>
    cases f' <;> cases hshape
    have heq := Except.ok.inj (h.trans h'.symm)
    rw [← (int2bytestringMinimal_spec n).1, heq, (int2bytestringMinimal_spec _).1]

/-- Each piece is the code of its field. -/
def SpellsFields (fs : List MessageField) (ps : List Bytes) : Prop :=
  List.Forall₂ (fun f p => MessageField.encode f = .ok p) fs ps

variable {fs fs' : List MessageField} {ps : List Bytes}

theorem SpellsFields.widths (h : SpellsFields fs ps) :
    List.Forall₂ HasWidth ps ((fs.map MessageField.shape).map FieldShape.width) := by
  induction h with
  | nil => exact .nil
  | cons h _ ih => exact .cons (hasWidth_encode h) ih

theorem SpellsFields.unique (h : SpellsFields fs ps) (h' : SpellsFields fs' ps)
    (hshapes : fs.map MessageField.shape = fs'.map MessageField.shape) : fs = fs' := by
  induction h generalizing fs' with
  | nil => exact (List.forall₂_nil_right_iff.1 h').symm
  | @cons f p fs ps h _ ih =>
    obtain ⟨f', fs', hf', hfs', rfl⟩ := List.forall₂_cons_right_iff.1 h'
    obtain ⟨hshape, hshapes⟩ := List.cons.inj hshapes
    rw [encode_inj hshape h hf', ih hfs' hshapes]

end Fields

section Tags

variable {k k' : MessageKind} {r r' : Bytes}

theorem MessageKind.mem_all (k : MessageKind) : k ∈ MessageKind.all := by
  cases k <;> simp [MessageKind.all]

theorem tags_apart : (MessageKind.all.map fun k => k.tag.take 7).Nodup
    ∧ (∀ k ∈ MessageKind.all, 7 ≤ k.tag.length)
    ∧ hexDecode bonsaiRteaAttestTagHex = .ok MessageKind.ricardianAttestation.tag := by
  decide +kernel

/-- No tag starts another. -/
theorem kind_eq_of_append (h : k.tag ++ r = k'.tag ++ r') : k = k' := by
  obtain ⟨hnodup, hlen, -⟩ := tags_apart
  have htake := congrArg (List.take 7) h
  rw [List.take_append_of_le_length (hlen k k.mem_all),
    List.take_append_of_le_length (hlen k' k'.mem_all)] at htake
  exact List.inj_on_of_nodup_map hnodup k.mem_all k'.mem_all htake

end Tags

section Injective

variable {m m' : DomainMessage} {bs : Bytes}

theorem DomainMessage.fields_shape (h : m.Sized) :
    m.fields.map MessageField.shape = m.kind.shapes := by
  cases m with
  | announce c bundleHash fileSetRoot now =>
    have hlen : c.params.publisherHash.length = 32 := h
    simp [fields, kind, MessageKind.shapes, MessageField.shape, hlen, bundleHash.2, fileSetRoot.2]
  | activate c activateDigest =>
    have hlen : c.params.publisherHash.length = 32 := h
    simp [fields, kind, MessageKind.shapes, MessageField.shape, hlen, activateDigest.2]
  | cancel c =>
    simp [fields, kind, MessageKind.shapes, MessageField.shape, h.1, h.2]
  | invalidate c activateDigest =>
    have hlen : c.params.publisherHash.length = 32 := h
    simp [fields, kind, MessageKind.shapes, MessageField.shape, hlen, activateDigest.2]
  | agentAttestation ricardianHash agent _ _ _ receiptHash
  | ricardianAttestation ricardianHash agent _ _ _ receiptHash =>
    simp [fields, kind, MessageKind.shapes, MessageField.shape, ricardianHash.2, agent.2,
      receiptHash.2]
  | agentRecovery ricardianHash newAgent recoveryCount =>
    simp [fields, kind, MessageKind.shapes, MessageField.shape, ricardianHash.2, newAgent.2]

theorem shapes_count (k : MessageKind) : (k.shapes.map FieldShape.width).count none ≤ 1 := by
  cases k <;> simp [MessageKind.shapes, FieldShape.width]

/-- What a call gives is its tag and a spelling of its fields. -/
theorem DomainMessage.bytes_eq_ok (h : m.bytes = .ok bs) :
    ∃ ps, SpellsFields m.fields ps ∧ bs = m.kind.tag ++ ps.flatten := by
  cases m with
  | announce c bundleHash fileSetRoot now =>
    simp only [bytes, publisherTeaAnnounceReceipt, bind_eq_ok, pure_eq_ok] at h
    obtain ⟨-, -, count8, hcount, now4, hnow, rfl⟩ := h
    refine ⟨[c.params.publisherHash, bundleHash, fileSetRoot, count8, now4], ?_, ?_⟩
    · simp [SpellsFields, fields, MessageField.encode, hcount, hnow]
    · simp [kind, MessageKind.tag]
  | activate c activateDigest =>
    simp only [bytes, publisherTeaActivateReceipt, bind_eq_ok, pure_eq_ok] at h
    obtain ⟨-, -, count8, hcount, now4, hnow, rfl⟩ := h
    refine ⟨[c.params.publisherHash, activateDigest, count8, now4], ?_, ?_⟩
    · simp [SpellsFields, fields, MessageField.encode, hcount, hnow]
    · simp [kind, MessageKind.tag]
  | cancel c =>
    simp only [bytes, publisherTeaCancelReceipt, bind_eq_ok, pure_eq_ok] at h
    obtain ⟨-, -, -, -, now4, hnow, rfl⟩ := h
    refine ⟨[c.params.publisherHash, c.state.pendingBundleHash, now4], ?_, ?_⟩
    · simp [SpellsFields, fields, MessageField.encode, hnow]
    · simp [kind, MessageKind.tag]
  | invalidate c activateDigest =>
    simp only [bytes, publisherTeaInvalidateReceipt, bind_eq_ok, pure_eq_ok] at h
    obtain ⟨-, -, now4, hnow, rfl⟩ := h
    refine ⟨[c.params.publisherHash, activateDigest, now4], ?_, ?_⟩
    · simp [SpellsFields, fields, MessageField.encode, hnow]
    · simp [kind, MessageKind.tag]
  | agentAttestation ricardianHash agent validatorPubkey amount attestedLimit receiptHash =>
    simp only [bytes, agentTeaAttestationMsg, bind_eq_ok, pure_eq_ok] at h
    obtain ⟨amount8, hamount, limit8, hlimit, rfl⟩ := h
    refine ⟨[ricardianHash, agent, int2bytestringMinimal validatorPubkey, amount8, limit8,
      receiptHash], ?_, ?_⟩
    · simp [SpellsFields, fields, MessageField.encode, hamount, hlimit]
    · simp [kind, MessageKind.tag]
  | agentRecovery ricardianHash newAgent recoveryCount =>
    simp only [bytes, agentTeaRecoveryMsg, bind_eq_ok, pure_eq_ok] at h
    obtain ⟨count8, hcount, rfl⟩ := h
    refine ⟨[ricardianHash, newAgent, count8], ?_, ?_⟩
    · simp [SpellsFields, fields, MessageField.encode, hcount]
    · simp [kind, MessageKind.tag]
  | ricardianAttestation ricardianHash agent validatorPubkey amount attestedLimit receiptHash =>
    simp only [bytes, ricardianTeaAttestationMsg, tags_apart.2.2, ok_bind, bind_eq_ok,
      pure_eq_ok] at h
    obtain ⟨amount8, hamount, limit8, hlimit, rfl⟩ := h
    refine ⟨[ricardianHash, agent, int2bytestringMinimal validatorPubkey, amount8, limit8,
      receiptHash], ?_, ?_⟩
    · simp [SpellsFields, fields, MessageField.encode, hamount, hlimit]
    · simp [kind]

/-- One message is of one kind and of one list of fields. -/
theorem DomainMessage.fields_eq_of_bytes (m m' : DomainMessage) (hsized : m.Sized)
    (hsized' : m'.Sized) (h : m.bytes = .ok bs) (h' : m'.bytes = .ok bs) :
    m.kind = m'.kind ∧ m.fields = m'.fields := by
  obtain ⟨ps, hps, rfl⟩ := bytes_eq_ok h
  obtain ⟨ps', hps', heq⟩ := bytes_eq_ok h'
  have hkind := kind_eq_of_append heq
  rw [hkind] at heq
  have hshapes := fields_shape hsized
  have hshapes' := fields_shape hsized'
  rw [hkind, ← hshapes'] at hshapes
  have hwidths := hps.widths
  rw [hshapes, hshapes'] at hwidths
  have hwidths' := hps'.widths
  rw [hshapes'] at hwidths'
  obtain rfl := eq_of_flatten_eq hwidths hwidths' (shapes_count _) (List.append_cancel_left heq)
  exact ⟨hkind, hps.unique hps' hshapes⟩

/-- Messages that are signed or committed to are not confused, within a kind or between kinds. -/
theorem domainMessages_apart :
    (∀ m m' : DomainMessage, m.Sized → m'.Sized → ∀ bs, m.bytes = .ok bs → m'.bytes = .ok bs →
      m.kind = m'.kind ∧ m.fields = m'.fields)
    ∧ (∀ (hash hash' : Block 32) (newAgent newAgent' : Block 33) (count count' : ℤ) (bs : Bytes),
      agentTeaRecoveryMsg hash newAgent count = .ok bs →
      agentTeaRecoveryMsg hash' newAgent' count' = .ok bs →
      hash = hash' ∧ newAgent = newAgent' ∧ count = count')
    ∧ (∀ (hash hash' : Block 32) (agent agent' : Block 33)
        (key key' amount amount' limit limit' : ℤ) (receipt receipt' : Block 32) (bs : Bytes),
      agentTeaAttestationMsg hash agent key amount limit receipt = .ok bs →
      agentTeaAttestationMsg hash' agent' key' amount' limit' receipt' = .ok bs →
      hash = hash' ∧ agent = agent' ∧ key = key' ∧ amount = amount' ∧ limit = limit'
        ∧ receipt = receipt')
    ∧ ∀ (hash hash' : Block 32) (agent agent' : Block 33)
        (key key' amount amount' limit limit' : ℤ) (receipt receipt' : Block 32) (bs : Bytes),
      ricardianTeaAttestationMsg hash agent key amount limit receipt = .ok bs →
      ricardianTeaAttestationMsg hash' agent' key' amount' limit' receipt' = .ok bs →
      hash = hash' ∧ agent = agent' ∧ key = key' ∧ amount = amount' ∧ limit = limit'
        ∧ receipt = receipt' := by
  refine ⟨fun m m' hsized hsized' bs h h' => m.fields_eq_of_bytes m' hsized hsized' h h',
    fun hash hash' newAgent newAgent' count count' bs h h' => ?_,
    fun hash hash' agent agent' key key' amount amount' limit limit' receipt receipt' bs h h' => ?_,
    fun hash hash' agent agent' key key' amount amount' limit limit' receipt receipt' bs h h' => ?_⟩
  · have hfields := (DomainMessage.fields_eq_of_bytes (.agentRecovery hash newAgent count)
      (.agentRecovery hash' newAgent' count') trivial trivial h h').2
    simpa [DomainMessage.fields, Subtype.ext_iff] using hfields
  · have hfields := (DomainMessage.fields_eq_of_bytes
      (.agentAttestation hash agent key amount limit receipt)
      (.agentAttestation hash' agent' key' amount' limit' receipt') trivial trivial h h').2
    simpa [DomainMessage.fields, Subtype.ext_iff] using hfields
  · have hfields := (DomainMessage.fields_eq_of_bytes
      (.ricardianAttestation hash agent key amount limit receipt)
      (.ricardianAttestation hash' agent' key' amount' limit' receipt') trivial trivial h h').2
    simpa [DomainMessage.fields, Subtype.ext_iff] using hfields

/-- A publisher about to announce. -/
def announcingPublisher : PublisherTea where
  artifact := ⟨[], [], [], []⟩
  params := ⟨[], [], [], List.replicate 32 3, 0, ⟨#[5, 7, 11], rfl⟩, 2⟩
  state := ⟨zero32, zero32, 1700000000, 1⟩

/-- An announcement is no activation, and a recovery is none of another count. -/
theorem domainMessages_apart_announced :
    publisherTeaAnnounceReceipt announcingPublisher (Block.fill 32 4) (Block.fill 32 5) 1700000000
      ≠ publisherTeaActivateReceipt announcingPublisher (Block.fill 32 4)
    ∧ agentTeaRecoveryMsg (List.replicate 32 1) (Block.fill 33 2) 0
      ≠ agentTeaRecoveryMsg (List.replicate 32 1) (Block.fill 33 2) 1 := by
  have hruns : (∃ bs, publisherTeaAnnounceReceipt announcingPublisher (Block.fill 32 4)
        (Block.fill 32 5) 1700000000 = .ok bs ∧ True)
      ∧ ∃ bs, agentTeaRecoveryMsg (List.replicate 32 1) (Block.fill 33 2) 0 = .ok bs ∧ True := by
    decide +kernel
  obtain ⟨⟨bs, hannounce, -⟩, bs', hrecover, -⟩ := hruns
  obtain ⟨hkinds, hrecovery, -⟩ := domainMessages_apart
  refine ⟨fun heq => ?_, fun heq => ?_⟩
  · have hsame := hkinds
      (.announce announcingPublisher (Block.fill 32 4) (Block.fill 32 5) 1700000000)
      (.activate announcingPublisher (Block.fill 32 4)) rfl rfl bs hannounce
      (heq.symm.trans hannounce)
    cases hsame.1
  · obtain ⟨-, -, hcount⟩ := hrecovery (Block.fill 32 1) (Block.fill 32 1) _ _ _ _ bs' hrecover
      (heq ▸ hrecover)
    omega

end Injective

end BonsaiChain
