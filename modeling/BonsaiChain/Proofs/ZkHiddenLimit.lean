import BonsaiChain.Lib.Delimited
import BonsaiChain.Lib.Segments
import BonsaiChain.Proofs.Bignum
import BonsaiChain.Proofs.CJson
import BonsaiChain.Proofs.KeyBinding
import BonsaiChain.Proofs.Num2binWidth
import BonsaiChain.Proofs.ScriptPush
import BonsaiChain.Proofs.TemplateSubstitution
import BonsaiChain.ZkHiddenLimit

/-!
# What the hidden limit's script commits to

The script is the code with the pushes of the key's integers in it, and these can be read back. The
pairing of alpha and beta is a zero on the chain, and so the script says nothing about either, while
the file that the verifier outside the chain gets has both.
-/

namespace BonsaiChain

open Lib TemplatePiece

section Pushes

variable {n : ℤ}

theorem BigNum.ext_val {a b : BigNum} (h : a.val = b.val) : a = b := by
  cases a
  cases b
  cases h
  rfl

/-- The integer that a chunk stands for. -/
def chunkInt (c : ScriptChunk) : ℤ :=
  match c.data with
  | some bs => smValue bs
  | none => if c.opcode = 0x4f then -1 else if c.opcode = 0 then 0 else c.opcode.toNat - 0x50

theorem chunkInt_small : ∀ k ∈ List.range 17, k ≠ 0 →
    chunkInt ⟨0x50 + (int2bytestringMinimal k).headD 0, none⟩ = k := by
  decide +kernel

theorem chunkInt_ctorIntChunk (n : ℤ) : chunkInt (ctorIntChunk n) = n := by
  unfold ctorIntChunk
  split_ifs with h0 hneg hsmall
  · rw [h0]
    rfl
  · rw [hneg]
    rfl
  · obtain ⟨k, rfl⟩ := Int.eq_ofNat_of_zero_le (show 0 ≤ n by omega)
    exact chunkInt_small k (List.mem_range.2 (by omega)) (by omega)
  · have hvalue := (int2bytestringMinimal_spec n).1
    have hne : int2bytestringMinimal n ≠ [] := by
      intro hnil
      rw [hnil, smValue_nil] at hvalue
      exact h0 hvalue.symm
    simp only [chunkInt, pushChunk, if_neg hne, hvalue]

/-- What is read off a script is one chunk and what follows it. -/
theorem Spells.unique {s s' r r' : Bytes} {c c' : ScriptChunk} (h : Spells s c) (h' : Spells s' c')
    (heq : s ++ r = s' ++ r') : c = c' ∧ r = r' := by
  obtain ⟨tail, rfl, hread⟩ := h
  obtain ⟨tail', rfl, hread'⟩ := h'
  simp only [List.cons_append, List.cons.injEq] at heq
  obtain ⟨hop, htail⟩ := heq
  have hsame := hread r
  rw [hop, htail, hread' r', Except.ok.injEq, Prod.mk.injEq] at hsame
  refine ⟨?_, hsame.2.symm⟩
  cases c
  cases c'
  simp_all

/-- A number of the library takes no more bytes than a push can have. -/
theorem BigNum.minimal_length (v : BigNum) : (int2bytestringMinimal v.val).length < 2 ^ 32 := by
  have hfits := v.fits
  by_cases h0 : v.val = 0
  · rw [h0]
    decide
  obtain ⟨k, hk, -⟩ := bnNumBytes_pos (Int.natAbs_ne_zero.2 h0)
  rw [int2bytestringMinimal_eq h0 hk]
  split_ifs <;> rw [signedBytes, leBytes_length] <;> omega

theorem delimits_ctorIntPush : Delimits (fun v : BigNum => ctorIntPush v.val) Set.univ := by
  intro v _ w _ r s heq
  obtain ⟨hchunk, hrest⟩ := (spells_ctorIntPush v.minimal_length).unique
    (spells_ctorIntPush w.minimal_length) heq
  have hval := congrArg chunkInt hchunk
  rw [chunkInt_ctorIntChunk, chunkInt_ctorIntChunk] at hval
  exact ⟨BigNum.ext_val hval, hrest⟩

end Pushes

section Script

variable {pre post : Bytes} {key key' : G16VerifyingKey} {l l' : BigNum}

/-- The integers of a field element or a point, in the order of the flattening. -/
def Fq2.leaves (f : Fq2) : List BigNum := [f.x, f.y]

def Fq6.leaves (f : Fq6) : List BigNum := f.x.leaves ++ f.y.leaves ++ f.z.leaves

def Fq12.leaves (f : Fq12) : List BigNum := f.x.leaves ++ f.y.leaves

def G1Point.leaves (p : G1Point) : List BigNum := [p.x, p.y]

def G2Point.leaves (p : G2Point) : List BigNum := p.x.leaves ++ p.y.leaves

/-- The integers of the script's key. -/
def G16VerifyingKey.leaves (key : G16VerifyingKey) : List BigNum :=
  key.millerB1a1.leaves ++ key.gamma.leaves ++ key.delta.leaves ++ key.gammaAbc.1.leaves
    ++ key.gammaAbc.2.leaves

/-- The constructor integers of a script. -/
def ctorInts (key : G16VerifyingKey) (l : BigNum) : List BigNum := key.leaves ++ [l]

theorem ctorInts_length : (ctorInts key l).length = 25 := rfl

theorem ctorInts_inj (h : ctorInts key l = ctorInts key' l') :
    key.gamma = key'.gamma ∧ key.delta = key'.delta ∧ key.gammaAbc = key'.gammaAbc ∧ l = l' := by
  obtain ⟨⟨⟨⟨_, _⟩, ⟨_, _⟩, ⟨_, _⟩⟩, ⟨⟨_, _⟩, ⟨_, _⟩, ⟨_, _⟩⟩⟩, ⟨⟨_, _⟩, ⟨_, _⟩⟩,
    ⟨⟨_, _⟩, ⟨_, _⟩⟩, ⟨⟨_, _⟩, ⟨_, _⟩⟩, _, _⟩ := key
  obtain ⟨⟨⟨⟨_, _⟩, ⟨_, _⟩, ⟨_, _⟩⟩, ⟨⟨_, _⟩, ⟨_, _⟩, ⟨_, _⟩⟩⟩, ⟨⟨_, _⟩, ⟨_, _⟩⟩,
    ⟨⟨_, _⟩, ⟨_, _⟩⟩, ⟨⟨_, _⟩, ⟨_, _⟩⟩, _, _⟩ := key'
  simp only [ctorInts, G16VerifyingKey.leaves, Fq12.leaves, Fq6.leaves, Fq2.leaves, G2Point.leaves,
    G1Point.leaves, List.cons_append, List.nil_append, List.cons.injEq] at h
  simp [h]

theorem zkPlaceholders_facts :
    zkPlaceholders.Nodup ∧ (∀ n ∈ zkPlaceholders, Unbracketed n) ∧ zkPlaceholders.length = 25 := by
  decide +kernel

/-- A leaf of the flattened constructor arguments. -/
def zkLeaf (name : CString) (v : BigNum) : ScryptLeaf := ⟨name, .int v.val⟩

theorem flattenArgs_zk (key : G16VerifyingKey) (l : BigNum) :
    flattenArgs (zkArtifact pre post) [zklBuildVk key, .int l.val]
      = .ok (List.zipWith zkLeaf zkPlaceholders (ctorInts key l)) := by
  rfl

/-- The push of a leaf. -/
def leafPush (leaf : ScryptLeaf) : Bytes := (toScriptHex leaf.value).toOption.getD []

def zkPieces (pre post : Bytes) : List TemplatePiece :=
  text (hexEncode pre) :: (zkPlaceholders.map hole ++ [text (hexEncode post)])

theorem zkTemplate_eq : (zkArtifact pre post).hexTemplate = templateText (zkPieces pre post) := by
  simp only [zkArtifact, zkPieces, templateText, List.flatMap_cons, List.flatMap_append,
    List.flatMap_map, List.flatMap_nil, List.append_nil, List.append_assoc]
  rfl

/-- With distinct names, each is looked up as the value at its place. -/
theorem map_lookup_zip {α : Type} : ∀ {names : List CString} {vs : List α}, names.Nodup →
    names.length = vs.length → names.map (fun n => (names.zip vs).lookup n) = vs.map some
  | [], [], _, _ => rfl
  | n :: names, v :: vs, hnodup, hlen => by
    obtain ⟨hn, hnodup⟩ := List.nodup_cons.1 hnodup
    have ih := map_lookup_zip hnodup (Nat.succ.inj hlen)
    have htail : names.map (fun m => ((n :: names).zip (v :: vs)).lookup m)
        = names.map fun m => (names.zip vs).lookup m := by
      refine List.map_congr_left fun m hm => ?_
      have hne : (m == n) = false := by
        rw [beq_eq_false_iff_ne]
        rintro rfl
        exact hn hm
      rw [List.zip_cons_cons, List.lookup_cons, hne]
    rw [List.map_cons, htail, ih, List.zip_cons_cons, List.lookup_cons, beq_self_eq_true]
    rfl

theorem templateText_holes {value : CString → Option CString} :
    ∀ {names texts : List CString}, names.map value = texts.map some →
      templateText (fillAtOnce value (names.map hole)) = texts.flatten
  | [], [], _ => rfl
  | n :: names, t :: texts, h => by
    obtain ⟨hn, hrest⟩ := List.cons.inj h
    have ih := templateText_holes hrest
    show ((hole n).fill value).print ++ templateText (fillAtOnce value (names.map hole)) = _
    rw [ih, fill, hn, List.flatten_cons]
    rfl

theorem hexEncode_flatten : ∀ bss : List Bytes, (bss.map hexEncode).flatten = hexEncode bss.flatten
  | [] => rfl
  | bs :: bss => by
    rw [List.map_cons, List.flatten_cons, List.flatten_cons, hexEncode_append,
      hexEncode_flatten bss]

/-- The pushes of the constructor's integers, in order. -/
def ctorPushes (key : G16VerifyingKey) (l : BigNum) : List Bytes :=
  (ctorInts key l).map fun v => ctorIntPush v.val

theorem map_leafValue : zkPlaceholders.map
    (leafValue leafPush (List.zipWith zkLeaf zkPlaceholders (ctorInts key l)))
      = ((ctorPushes key l).map hexEncode).map some := by
  obtain ⟨hnodup, -, hlen⟩ := zkPlaceholders_facts
  have hpairs : (List.zipWith zkLeaf zkPlaceholders (ctorInts key l)).map
      (fun leaf => (leaf.name, hexEncode (leafPush leaf)))
        = zkPlaceholders.zip ((ctorPushes key l).map hexEncode) := by
    rw [ctorPushes, List.map_map, List.map_zipWith, List.zip, List.zipWith_map_right]
    rfl
  unfold leafValue
  rw [hpairs]
  exact map_lookup_zip hnodup (by simp [hlen, ctorPushes, ctorInts_length])

/-- The script is the code with the pushes in it. -/
theorem zkHiddenLimitLockingScript_eq :
    zkHiddenLimitLockingScript ⟨zkArtifact pre post, key, l⟩
      = .ok (pre ++ (ctorPushes key l).flatten ++ post) := by
  obtain ⟨-, hplain, -⟩ := zkPlaceholders_facts
  have hpieces : ∀ p ∈ zkPieces pre post, Unbracketed p.content := by
    intro p hp
    simp only [zkPieces, List.mem_cons, List.mem_append, List.mem_map, List.not_mem_nil,
      or_false] at hp
    rcases hp with rfl | ⟨n, hn, rfl⟩ | rfl
    · exact unbracketed_hexEncode
    · exact hplain n hn
    · exact unbracketed_hexEncode
  have hleaf : ∀ leaf ∈ List.zipWith zkLeaf zkPlaceholders (ctorInts key l),
      toScriptHex leaf.value = .ok (leafPush leaf) ∧ Unbracketed leaf.name := by
    intro leaf hmem
    rw [← List.map_uncurry_zip_eq_zipWith] at hmem
    obtain ⟨⟨n, v⟩, hpair, rfl⟩ := List.mem_map.1 hmem
    exact ⟨rfl, hplain n (List.of_mem_zip hpair).1⟩
  have hcode := reconstructCode_eq (flattenArgs_zk key l) zkTemplate_eq hpieces
    (fun leaf h => (hleaf leaf h).1) fun leaf h => (hleaf leaf h).2
  have htext : templateText (fillAtOnce
      (leafValue leafPush (List.zipWith zkLeaf zkPlaceholders (ctorInts key l)))
      (zkPieces pre post)) = hexEncode (pre ++ (ctorPushes key l).flatten ++ post) := by
    have hholes := templateText_holes (@map_leafValue key l)
    unfold templateText fillAtOnce at hholes ⊢
    rw [zkPieces, List.map_cons, List.map_append, List.flatMap_cons, List.flatMap_append, hholes,
      hexEncode_flatten, hexEncode_append, hexEncode_append]
    simp [fill, print]
  unfold zkHiddenLimitLockingScript reconstructLockingScript
  rw [hcode, htext, hexDecode_hexEncode, ok_bind]
  rfl

/-- The script tells the integers in it. -/
theorem ctorInts_eq_of_script {script : Bytes}
    (h : zkHiddenLimitLockingScript ⟨zkArtifact pre post, key, l⟩ = .ok script)
    (h' : zkHiddenLimitLockingScript ⟨zkArtifact pre post, key', l'⟩ = .ok script) :
    ctorInts key l = ctorInts key' l' := by
  have heq := h.trans h'.symm
  rw [zkHiddenLimitLockingScript_eq, zkHiddenLimitLockingScript_eq, Except.ok.injEq,
    List.append_assoc, List.append_assoc, List.append_cancel_left_eq] at heq
  exact (delimits_ctorIntPush.flatMap 25 _ ⟨rfl, by simp⟩ _ ⟨rfl, by simp⟩ post post heq).1

end Script

section Files

theorem quote_notMem_decimalInt (n : ℤ) : (34 : UInt8) ∉ decimalInt n := fun h =>
  absurd (CJson.isNumberByte_decimalInt h) (by decide)

theorem delimits_jsonInt : Delimits jsonInt Set.univ := by
  intro v _ w _ r s heq
  simp only [jsonInt, List.cons_append, List.append_assoc, List.nil_append, List.cons.injEq,
    true_and] at heq
  obtain ⟨hdec, hrest⟩ := (append_sep_inj (quote_notMem_decimalInt _)
    (quote_notMem_decimalInt _)).1 heq
  have hval := congrArg bnParseDec hdec
  rw [bnParseDec_decimalInt, bnParseDec_decimalInt, Except.ok.injEq] at hval
  exact ⟨BigNum.ext_val hval, hrest⟩

theorem delimits_jsonG1 : Delimits jsonG1 Set.univ := by
  intro p _ q _ r s heq
  simp only [jsonG1, List.append_assoc, List.append_cancel_left_eq] at heq
  obtain ⟨hx, heq⟩ := delimits_jsonInt _ trivial _ trivial _ _ heq
  obtain ⟨hy, heq⟩ := delimits_jsonInt _ trivial _ trivial _ _ (List.append_cancel_left heq)
  refine ⟨?_, List.append_cancel_left heq⟩
  cases p
  cases q
  simp_all

theorem delimits_jsonG2 : Delimits jsonG2 Set.univ := by
  intro p _ q _ r s heq
  simp only [jsonG2, List.append_assoc, List.append_cancel_left_eq] at heq
  obtain ⟨hxx, heq⟩ := delimits_jsonInt _ trivial _ trivial _ _ heq
  obtain ⟨hxy, heq⟩ := delimits_jsonInt _ trivial _ trivial _ _ (List.append_cancel_left heq)
  obtain ⟨hyx, heq⟩ := delimits_jsonInt _ trivial _ trivial _ _ (List.append_cancel_left heq)
  obtain ⟨hyy, heq⟩ := delimits_jsonInt _ trivial _ trivial _ _ (List.append_cancel_left heq)
  refine ⟨?_, List.append_cancel_left heq⟩
  obtain ⟨⟨_, _⟩, ⟨_, _⟩⟩ := p
  obtain ⟨⟨_, _⟩, ⟨_, _⟩⟩ := q
  simp_all

/-- The file of a key has its alpha and its beta. -/
theorem writeVkeyFile_inj {key key' : G16VerifyingKey}
    (h : writeVkeyFile key = writeVkeyFile key') :
    key.alpha = key'.alpha ∧ key.beta = key'.beta := by
  simp only [writeVkeyFile, List.append_assoc, List.append_cancel_left_eq] at h
  obtain ⟨halpha, h⟩ := delimits_jsonG1 _ trivial _ trivial _ _ h
  obtain ⟨hbeta, -⟩ := delimits_jsonG2 _ trivial _ trivial _ _ (List.append_cancel_left h)
  exact ⟨halpha, hbeta⟩

end Files

section Commitment

variable {pre post : Bytes} {vk vk' : SnarkjsVkey} {key key' : G16VerifyingKey} {l l' : BigNum}

/-- Two texts of one integer. -/
def SameDec (a b : Option CString) : Prop := a.map bnParseDec = b.map bnParseDec

def SamePair (a b : DecPair) : Prop := SameDec a.1 b.1 ∧ SameDec a.2 b.2

def SameQuad (a b : DecPair × DecPair) : Prop := SamePair a.1 b.1 ∧ SamePair a.2 b.2

theorem leafDec_eq_ok {s : Option CString} {v : BigNum} (h : leafDec s = .ok v) :
    s.map bnParseDec = some (.ok v.val) := by
  rcases s with _ | s
  · cases h
  · simp only [leafDec, bind_eq_ok] at h
    obtain ⟨n, hn, hv⟩ := h
    split_ifs at hv with hfits
    obtain rfl := Except.ok.inj hv
    rw [Option.map_some, hn]

theorem sameDec_iff {a b : Option CString} {v w : BigNum} (ha : leafDec a = .ok v)
    (hb : leafDec b = .ok w) : SameDec a b ↔ v = w := by
  rw [SameDec, leafDec_eq_ok ha, leafDec_eq_ok hb, Option.some.injEq, Except.ok.injEq]
  exact ⟨BigNum.ext_val, fun h => by rw [h]⟩

theorem samePair_iff {a b : DecPair} {p q : G1Point} (ha : g1FromDec a = .ok p)
    (hb : g1FromDec b = .ok q) : SamePair a b ↔ p = q := by
  simp only [g1FromDec, bind_eq_ok, pure_eq_ok] at ha hb
  obtain ⟨x, hx, y, hy, rfl⟩ := ha
  obtain ⟨x', hx', y', hy', rfl⟩ := hb
  rw [SamePair, sameDec_iff hx hx', sameDec_iff hy hy', G1Point.mk.injEq]

theorem sameQuad_iff {a b : DecPair × DecPair} {p q : G2Point} (ha : g2FromDec a = .ok p)
    (hb : g2FromDec b = .ok q) : SameQuad a b ↔ p = q := by
  simp only [g2FromDec, bind_eq_ok, pure_eq_ok] at ha hb
  obtain ⟨x, hx, y, hy, z, hz, w, hw, rfl⟩ := ha
  obtain ⟨x', hx', y', hy', z', hz', w', hw', rfl⟩ := hb
  rw [SameQuad, SamePair, SamePair, sameDec_iff hx hx', sameDec_iff hy hy', sameDec_iff hz hz',
    sameDec_iff hw hw', G2Point.mk.injEq, Fq2.mk.injEq, Fq2.mk.injEq]

/-- What a key has been read from. -/
structure ReadFrom (vk : SnarkjsVkey) (key : G16VerifyingKey) : Prop where
  miller : key.millerB1a1 = fq12Zero
  gamma : g2FromDec vk.vkGamma2 = .ok key.gamma
  delta : g2FromDec vk.vkDelta2 = .ok key.delta
  ic0 : g1FromDec vk.ic.1 = .ok key.gammaAbc.1
  ic1 : g1FromDec vk.ic.2 = .ok key.gammaAbc.2
  alpha : g1FromDec vk.vkAlpha1 = .ok key.alpha
  beta : g2FromDec vk.vkBeta2 = .ok key.beta

theorem readFrom_of_ok (h : vkFromSnarkjs vk = .ok key) : ReadFrom vk key := by
  simp only [vkFromSnarkjs, guard_eq_ok, bind_eq_ok, pure_eq_ok] at h
  obtain ⟨-, -, -, gamma, hgamma, delta, hdelta, ic0, hic0, ic1, hic1, alpha, halpha, beta, hbeta,
    rfl⟩ := h
  exact ⟨rfl, hgamma, hdelta, hic0, hic1, halpha, hbeta⟩

/-- The texts that the script commits to spell the same integers. -/
def SameOnChain (vk vk' : SnarkjsVkey) : Prop :=
  SameQuad vk.vkGamma2 vk'.vkGamma2 ∧ SameQuad vk.vkDelta2 vk'.vkDelta2 ∧ SameQuad vk.ic vk'.ic

/-- The texts that it does not commit to do. -/
def SamePairing (vk vk' : SnarkjsVkey) : Prop :=
  SamePair vk.vkAlpha1 vk'.vkAlpha1 ∧ SameQuad vk.vkBeta2 vk'.vkBeta2

theorem sameOnChain_iff (hkey : ReadFrom vk key) (hkey' : ReadFrom vk' key') :
    SameOnChain vk vk' ∧ l = l' ↔ ctorInts key l = ctorInts key' l' := by
  rw [SameOnChain, sameQuad_iff hkey.gamma hkey'.gamma, sameQuad_iff hkey.delta hkey'.delta,
    SameQuad, samePair_iff hkey.ic0 hkey'.ic0, samePair_iff hkey.ic1 hkey'.ic1, ← Prod.ext_iff]
  refine ⟨?_, fun h => ?_⟩
  · rintro ⟨⟨hgamma, hdelta, hic⟩, rfl⟩
    rw [ctorInts, ctorInts, G16VerifyingKey.leaves, G16VerifyingKey.leaves, hkey.miller,
      hkey'.miller, hgamma, hdelta, hic]
  · obtain ⟨hgamma, hdelta, hic, hl⟩ := ctorInts_inj h
    exact ⟨⟨hgamma, hdelta, hic⟩, hl⟩

theorem samePairing_iff (hkey : ReadFrom vk key) (hkey' : ReadFrom vk' key') :
    SamePairing vk vk' ↔ key.alpha = key'.alpha ∧ key.beta = key'.beta := by
  rw [SamePairing, samePair_iff hkey.alpha hkey'.alpha, sameQuad_iff hkey.beta hkey'.beta]

/-- Where the scripts of two keys and limits are the same, the verifier outside the chain gives one
verdict under both keys, whatever it is. -/
def ScriptCommits (pre post : Bytes) (vk vk' : SnarkjsVkey) (l l' : BigNum) : Prop :=
  ∀ key key' script, vkFromSnarkjs vk = .ok key → vkFromSnarkjs vk' = .ok key' →
    zkHiddenLimitLockingScript ⟨zkArtifact pre post, key, l⟩ = .ok script →
    zkHiddenLimitLockingScript ⟨zkArtifact pre post, key', l'⟩ = .ok script →
    ∀ snarkjs input proof,
      verifyProofOffChain snarkjs input proof key = verifyProofOffChain snarkjs input proof key'

/-- A verifier that asks for the file of the first key tells the files of the two apart. -/
theorem ScriptCommits.file_eq (h : ScriptCommits pre post vk vk' l l')
    (hkey : vkFromSnarkjs vk = .ok key) (hkey' : vkFromSnarkjs vk' = .ok key')
    (hsame : ctorInts key l = ctorInts key' l') : writeVkeyFile key = writeVkeyFile key' := by
  have hscript : zkHiddenLimitLockingScript ⟨zkArtifact pre post, key', l'⟩
      = zkHiddenLimitLockingScript ⟨zkArtifact pre post, key, l⟩ := by
    rw [zkHiddenLimitLockingScript_eq, zkHiddenLimitLockingScript_eq, ctorPushes, ctorPushes, hsame]
  have hverdict := h key key' _ hkey hkey' zkHiddenLimitLockingScript_eq
    (hscript.trans zkHiddenLimitLockingScript_eq)
    (fun file _ _ => .ok (decide (file = writeVkeyFile key))) l ⟨key.alpha, key.beta, key.alpha⟩
  simpa [verifyProofOffChain, eq_comm] using hverdict

/-- The script commits to two keys exactly when they have one alpha and one beta or differ in what
it commits to. -/
theorem scriptCommits_iff (pre post : Bytes) (haccept : ∃ key, vkFromSnarkjs vk = .ok key)
    (haccept' : ∃ key, vkFromSnarkjs vk' = .ok key) :
    ScriptCommits pre post vk vk' l l' ↔ (SameOnChain vk vk' ∧ l = l' → SamePairing vk vk') := by
  obtain ⟨key, hkey⟩ := haccept
  obtain ⟨key', hkey'⟩ := haccept'
  have hread := readFrom_of_ok hkey
  have hread' := readFrom_of_ok hkey'
  rw [sameOnChain_iff hread hread', samePairing_iff hread hread']
  refine ⟨fun h hsame => writeVkeyFile_inj (h.file_eq hkey hkey' hsame), ?_⟩
  rintro h k k' script hk hk' hscript hscript' snarkjs input proof
  obtain rfl := Except.ok.inj (hkey.symm.trans hk)
  obtain rfl := Except.ok.inj (hkey'.symm.trans hk')
  have hsame := ctorInts_eq_of_script hscript hscript'
  obtain ⟨hgamma, hdelta, hic, -⟩ := ctorInts_inj hsame
  obtain ⟨halpha, hbeta⟩ := h hsame
  have hfile : writeVkeyFile key = writeVkeyFile key' := by
    unfold writeVkeyFile
    rw [halpha, hbeta, hgamma, hdelta, hic]
  rw [verifyProofOffChain, verifyProofOffChain, hfile]

/-- A point of the curve, and the one opposite to it. -/
def exampleG1 : DecPair := (some (decimal 1), some (decimal 2))

def oppositeG1 : DecPair := (some (decimal 1), some (decimal
  21888242871839275222246405745257275088696311157297823662689037894645226208581))

def exampleG2 : DecPair × DecPair :=
  ((some (decimal 10857046999023057135944570762232829481370756359578518086990519993285655852781),
    some (decimal 11559732032986387107991004021392285783925812861821192530917403151452391805634)),
  (some (decimal 8495653923123431417604973247489272438418190587263600148770280649306958101930),
    some (decimal 4082367875863433681332203403145435568316851327593401208105741076214120093531)))

def exampleVkey : SnarkjsVkey :=
  ⟨some (ascii "groth16"), some (ascii "bn128"), 1, exampleG1, exampleG2, exampleG2, exampleG2,
    (exampleG1, exampleG1)⟩

/-- The key with the opposite alpha. -/
def oppositeVkey : SnarkjsVkey := { exampleVkey with vkAlpha1 := oppositeG1 }

theorem exampleVkey_facts : ∃ key, vkFromSnarkjs exampleVkey = .ok key
    ∧ ∃ key', vkFromSnarkjs oppositeVkey = .ok key' ∧ key.leaves = key'.leaves
      ∧ key.alpha ≠ key'.alpha := by
  decide +kernel

/-- The key with the opposite alpha and the opposite point of the public input. -/
def oppositeInputVkey : SnarkjsVkey := { oppositeVkey with ic := (exampleG1, oppositeG1) }

/-- The point of the public input tells two keys apart that have one limit. -/
theorem scriptCommits_iff_input :
    ScriptCommits [] [] exampleVkey oppositeInputVkey ⟨7, by decide⟩ ⟨7, by decide⟩ := by
  obtain ⟨key, hkey, -⟩ := exampleVkey_facts
  obtain ⟨key', hkey', -⟩ : ∃ key', vkFromSnarkjs oppositeInputVkey = .ok key' ∧ True := by
    decide +kernel
  refine (scriptCommits_iff [] [] ⟨key, hkey⟩ ⟨key', hkey'⟩).2 ?_
  rintro ⟨⟨-, -, -, -, hy⟩, -⟩
  unfold SameDec at hy
  exact absurd hy (by decide +kernel)

/-- The script of a key with the opposite alpha is the same. -/
theorem scriptCommits_misses_alpha : (∃ key, vkFromSnarkjs exampleVkey = .ok key)
    ∧ (∃ key, vkFromSnarkjs oppositeVkey = .ok key)
    ∧ ∀ pre post l, ¬ScriptCommits pre post exampleVkey oppositeVkey l l := by
  obtain ⟨key, hkey, key', hkey', hleaves, halpha⟩ := exampleVkey_facts
  refine ⟨⟨key, hkey⟩, ⟨key', hkey'⟩, fun pre post l h => halpha ?_⟩
  exact (writeVkeyFile_inj (h.file_eq hkey hkey' (by rw [ctorInts, ctorInts, hleaves]))).1

end Commitment

end BonsaiChain
