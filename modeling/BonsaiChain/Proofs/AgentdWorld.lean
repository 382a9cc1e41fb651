import BonsaiChain.Lib.FileReplace
import BonsaiChain.Lib.LedgerRegister
import BonsaiChain.Lib.LineLog
import BonsaiChain.Proofs.AgentdMirror
import BonsaiChain.Proofs.AgentdPersistence
import BonsaiChain.Proofs.AgentdRecord

/-!
# Killed agents resume one run

However many invocations share a state file, and wherever they are killed or the power goes, the
transactions that the network takes from them are those of one run of the agent, and the state file
is a whole record of that run, at or after every record whose invocation exited with 0. The network
is the lock: it takes one follower of each tip, so the state file is a register behind a ledger, and
the disk, the journal and the temporary files are followed by the automata of the library.
-/

namespace BonsaiChain

open Lib Traced Relation

section Lineage

variable {ι : Type} {n : Network ι} {tx : Tx} {sender : Option ι} {o : CString × UInt32}

theorem Network.Spent.grow (h : n.Spent o) (t : Option ι × Tx) : Network.Spent (n ++ [t]) o := by
  obtain ⟨u, hu, ho⟩ := h
  exact ⟨u, List.mem_append_left _ hu, ho⟩

theorem Network.spent_last (ho : o ∈ tx.spends) : Network.Spent (n ++ [(sender, tx)]) o :=
  ⟨_, List.mem_append_right _ (List.mem_singleton_self _), ho⟩

theorem Network.sent_append (i : ι) (tx : Tx) :
    Network.sent (n ++ [(some i, tx)]) = n.sent ++ [tx] := by
  simp [Network.sent]

/-- What the network took from the invocations is one run, with a revocation at the end at most, and
the records are those of the run. All their tips but the last one are spent. -/
structure Lineage (P : Prims) (d : DeployArgs) (deployTx : Tx) (n : Network ι)
    (es : List AgentdEvent) (st : AgentState) (this : Covenant.AgentTea) (revs : List Tx)
    (past : List StateFile.AgentState) : Prop where
  run : AgentdRun P d deployTx es st this
  sent : n.sent = es.map AgentdEvent.sent ++ revs
  one : revs.length ≤ 1
  revs_spend : ∀ t ∈ revs, st.outpoint ∈ t.spends
  deploy_answers : d.AnswersId (fun bs => (sha256d P bs).1) deployTx
  answers : ∀ e ∈ es, e.AnswersId fun bs => (sha256d P bs).1
  lives : past.map StateFile.AgentState.live
    = es.map AgentdEvent.st ++ [st] ++ revs.map fun _ => st
  named : ∀ r ∈ past, r.Named
  spent : ∀ k r, past[k]? = some r → k + 1 < past.length ∨ revs ≠ [] → n.Spent r.live.outpoint

variable {P : Prims} {d : DeployArgs} {deployTx : Tx} {es : List AgentdEvent} {st : AgentState}
  {this : Covenant.AgentTea} {revs : List Tx} {past : List StateFile.AgentState}
  {r record : StateFile.AgentState} {a : StepArgs} {rawHex : CString} {k : ℕ} {i : ι}

/-- The answer to a broadcast is the id of the signed transaction. -/
theorem txId_of_sent {sigs : List Bytes} {txid : CString} {woc : WocClient}
    (hsign : signAndBuild tx sigs = .ok rawHex)
    (hsend : chainBroadcastSend P woc rawHex = .ok txid) :
    txId (fun bs => (sha256d P bs).1) (signed tx sigs) = .ok txid := by
  simp only [signAndBuild, bind_eq_ok, pure_eq_ok] at hsign
  obtain ⟨raw, hraw, rfl⟩ := hsign
  obtain ⟨raw', hraw', rfl⟩ := chainBroadcastSend_eq_ok hsend
  rw [hexDecode_hexEncode] at hraw'
  obtain rfl := Except.ok.inj hraw'
  have hser : txSerialize (signed tx sigs) = .ok raw := hraw
  simp only [txId, hser, ok_bind]
  rfl

theorem Lineage.other (h : Lineage P d deployTx n es st this revs past) (tx : Tx) :
    Lineage P d deployTx (n ++ [(none, tx)]) es st this revs past :=
  { h with
    sent := by rw [← h.sent]; simp [Network.sent]
    spent := fun k r hr hk => (h.spent k r hr hk).grow _ }

/-- A transaction that is taken follows the last record, and nothing revokes it before. -/
theorem Lineage.last (h : Lineage P d deployTx n es st this revs past) (hr : past[k]? = some r)
    (hspends : SpendsTip r.live a tx rawHex) (haccepts : n.Accepts (signed tx a.sigs)) :
    k + 1 = past.length ∧ revs = [] ∧ r.live = st := by
  have hunspent : ¬n.Spent r.live.outpoint := haccepts _ hspends.spends
  have hlt : k < past.length := (List.getElem?_eq_some_iff.mp hr).1
  have hlast : k + 1 = past.length := by
    by_contra hne
    exact hunspent (h.spent k r hr (.inl (by omega)))
  have hrevs : revs = [] := by
    by_contra hne
    exact hunspent (h.spent k r hr (.inr hne))
  refine ⟨hlast, hrevs, ?_⟩
  subst hrevs
  have hlives := h.lives
  have hlen := congrArg List.length hlives
  simp only [List.length_map, List.map_nil, List.append_nil, List.length_append,
    List.length_singleton] at hlen
  have hlive : (past.map StateFile.AgentState.live)[k]? = some r.live := by
    rw [List.getElem?_map, hr]
    rfl
  rw [hlives, List.map_nil, List.append_nil, List.getElem?_append_right (by simp; omega)] at hlive
  simpa [show k - es.length = 0 by omega] using hlive.symm

theorem getElem?_snoc_cases {α : Type} {l : List α} {x y : α} (h : (l ++ [x])[k]? = some y) :
    l[k]? = some y ∨ k = l.length ∧ y = x := by
  rcases Nat.lt_trichotomy k l.length with hlt | rfl | hlt
  · exact .inl ((List.getElem?_append_left hlt).symm.trans h)
  · exact .inr ⟨rfl, by simpa [eq_comm] using h⟩
  · rw [List.getElem?_eq_none (by simp; omega)] at h
    cases h

theorem Lineage.step {op : AgentdOp} {woc : WocClient}
    (h : Lineage P d deployTx n es st this [] past)
    (hlast : past[k]? = some r) (hk : k + 1 = past.length) (hnamed : record.Named)
    (hok : agentdStep P d.artifact st op = .ok (tx, record.live))
    (hspends : SpendsTip r.live op.args tx rawHex)
    (hsend : chainBroadcastSend P woc rawHex = .ok op.args.txid) :
    Lineage P d deployTx (n ++ [(some i, signed tx op.args.sigs)]) (es ++ [⟨st, this, op, tx⟩])
      record.live (op.next this) [] (past ++ [record]) where
  run := .step h.run hok
  sent := by
    rw [Network.sent_append, h.sent]
    simp [AgentdEvent.sent]
  one := Nat.zero_le 1
  revs_spend := nofun
  deploy_answers := h.deploy_answers
  answers := List.forall_mem_append.mpr
    ⟨h.answers, List.forall_mem_singleton.mpr (txId_of_sent hspends.signed hsend)⟩
  lives := by
    rw [List.map_append, h.lives]
    simp
  named := List.forall_mem_append.mpr ⟨h.named, List.forall_mem_singleton.mpr hnamed⟩
  spent := by
    intro j r' hr' hj
    have hj : j + 1 < (past ++ [record]).length := hj.resolve_right fun hne => hne rfl
    rw [List.length_append, List.length_singleton] at hj
    rcases getElem?_snoc_cases hr' with hr' | ⟨rfl, -⟩
    · have hle := Nat.succ_le_of_lt (List.getElem?_eq_some_iff.mp hr').1
      rcases Nat.lt_or_eq_of_le hle with hlt | heq
      · exact (h.spent j r' hr' (.inl hlt)).grow _
      · obtain rfl : j = k := by omega
        obtain rfl : r' = r := Option.some.inj (hr'.symm.trans hlast)
        exact Network.spent_last hspends.spends
    · omega

theorem Lineage.revoke (h : Lineage P d deployTx n es st this [] past)
    (hlast : past[k]? = some r) (hk : k + 1 = past.length) (hlive : r.live = st)
    (hnamed : record.Named) (hrecord : record.live = st)
    (hspends : SpendsTip r.live a tx rawHex) :
    Lineage P d deployTx (n ++ [(some i, signed tx a.sigs)]) es st this [signed tx a.sigs]
      (past ++ [record]) where
  run := h.run
  sent := by
    rw [Network.sent_append, h.sent]
    simp
  one := le_rfl
  revs_spend := List.forall_mem_singleton.mpr (hlive ▸ hspends.spends)
  deploy_answers := h.deploy_answers
  answers := h.answers
  lives := by
    rw [List.map_append, h.lives]
    simp [hrecord]
  named := List.forall_mem_append.mpr ⟨h.named, List.forall_mem_singleton.mpr hnamed⟩
  spent := by
    intro j r' hr' _
    rcases getElem?_snoc_cases hr' with hr' | ⟨-, rfl⟩
    · have hle := Nat.succ_le_of_lt (List.getElem?_eq_some_iff.mp hr').1
      rcases Nat.lt_or_eq_of_le hle with hlt | heq
      · exact (h.spent j r' hr' (.inl hlt)).grow _
      · obtain rfl : j = k := by omega
        obtain rfl : r' = r := Option.some.inj (hr'.symm.trans hlast)
        exact Network.spent_last hspends.spends
    · rw [hrecord, ← hlive]
      exact Network.spent_last hspends.spends

end Lineage

section Saves

/-- How far an invocation is with its files. -/
inductive SaveStage where
  | log (s : LogStage ℕ UInt8)
  | replace (s : ReplaceStage CString ℕ UInt8)

/-- What an invocation does to the disk after its transaction is taken: it writes the journal, and
then it replaces the state file. -/
inductive Saves (stateFile journal : CString) (text line : Bytes) :
    SaveStage → PathEffect → SaveStage → Prop
  | log {s s' : LogStage ℕ UInt8} {e : PathEffect} (h : WritesLine parentDir journal line s e s') :
    Saves stateFile journal text line (.log s) e (.log s')
  | turn (s : LogStage ℕ UInt8) {s' : ReplaceStage CString ℕ UInt8} {e : PathEffect}
      (h : Replaces parentDir (IsTmp stateFile) stateFile text .idle e s') :
    Saves stateFile journal text line (.log s) e (.replace s')
  | replace {s s' : ReplaceStage CString ℕ UInt8} {e : PathEffect}
      (h : Replaces parentDir (IsTmp stateFile) stateFile text s e s') :
    Saves stateFile journal text line (.replace s) e (.replace s')

variable {stateFile journal text line : CString}

theorem Saves.of_replaces {s : LogStage ℕ UInt8} {t : ReplaceStage CString ℕ UInt8}
    {es : List PathEffect}
    (h : Path (Replaces parentDir (IsTmp stateFile) stateFile text) .idle es t) :
    ∃ u, Path (Saves stateFile journal text line) (.log s) es u
      ∧ (u = .replace t ∨ u = .log s ∧ t = .idle) := by
  induction h with
  | nil => exact ⟨_, .nil, .inr ⟨rfl, rfl⟩⟩
  | snoc _ hs ih =>
    obtain ⟨u, hpath, rfl | ⟨rfl, rfl⟩⟩ := ih
    · exact ⟨_, hpath.snoc (.replace hs), .inl rfl⟩
    · exact ⟨_, hpath.snoc (.turn s hs), .inl rfl⟩

theorem persistStep_obeys {override : Option CString} {tag txid : CString}
    {record : StateFile.AgentState} {jos : JournalAnswers} {os : AtomicAnswers} :
    Obeys (Saves stateFile (journalPath stateFile override) (StateFile.agentStateToJson record)
        (journalLine tag txid)) (.log .closed)
      (persistStep stateFile override tag txid record jos os)
      fun rc t => rc = .ok () → t = .replace .settled := by
  refine Obeys.bind (Q := fun _ t => ∃ s, t = .log s) ?_ fun _ t ht => ?_
  · obtain ⟨s, hpath, -⟩ : Obeys _ _ (agentdJournalBroadcast stateFile tag txid override jos) _ :=
      agentdJournalBroadcast_obeys
    exact ⟨_, hpath.map fun _ _ _ h => .log h, fun _ _ => ⟨s, rfl⟩⟩
  · obtain ⟨s, rfl⟩ := ht
    obtain ⟨t, hpath, hres⟩ : Obeys _ _
        (agentdWriteFileAtomic stateFile (StateFile.agentStateToJson record) os) _ :=
      agentdWriteFileAtomic_obeys
    obtain ⟨u, hpath', hu⟩ := Saves.of_replaces hpath
    refine ⟨u, hpath', fun rc hrc hok => ?_⟩
    obtain rfl := hres rc hrc hok
    exact hu.resolve_right fun h => nomatch h.2

namespace SaveStage

def owned : SaveStage → Option (CString × ℕ)
  | log _ => none
  | replace s => s.owned

/-- What an invocation may rely on. -/
def Holds (stateFile journal : CString) (text : Bytes) (d : PathDisk) : SaveStage → Prop
  | log s => ∀ ino ∈ s.file, d.dir journal = some ino
  | replace s => s.Holds (IsTmp stateFile) text d

/-- The phase of an invocation whose record has the place `k`. -/
def phase (k : ℕ) : SaveStage → LedgerPhase
  | replace .renamed => .stored k
  | replace .settled => .settled k
  | _ => .won k

/-- The temporary file of a stage was one before, or it is new. -/
theorem owned_of_saves {s s' : SaveStage} {e : PathEffect} {tmp : CString} {ino : ℕ}
    (hs : Saves stateFile journal text line s e s') (h : s'.owned = some (tmp, ino)) :
    s.owned = some (tmp, ino) ∨ e = .create tmp ino := by
  have hreplace : ∀ {s s' : ReplaceStage CString ℕ UInt8},
      Replaces parentDir (IsTmp stateFile) stateFile text s e s' → s'.owned = some (tmp, ino) →
      s.owned = some (tmp, ino) ∨ e = .create tmp ino := by
    intro s s' hs h
    cases hs with
    | create =>
      obtain ⟨rfl, rfl⟩ := Prod.mk.inj (Option.some.inj h)
      exact .inr rfl
    | append | sync => exact .inl h
    | unlink | unlinkSynced | rename | settle => exact nomatch h
  cases hs with
  | log => exact nomatch h
  | turn _ hs => exact (hreplace hs h).imp_left nofun
  | replace hs => exact hreplace hs h

variable {d : PathDisk} {s s' t : SaveStage} {e : PathEffect} {text' : Bytes}
  (hs : Saves stateFile journal text line s e s') (hallows : d.Allows e) (hd : d.Coherent)
  (h : s.Holds stateFile journal text d)
  (hjournal : ¬IsTmp stateFile journal) (hne : stateFile ≠ journal)
include hs hallows hd h hjournal hne

omit hjournal hne in
theorem Holds.step : s'.Holds stateFile journal text (d.apply parentDir e) := by
  cases hs with
  | log hs => exact hs.file_open hallows h
  | turn _ hs => exact ReplaceStage.Holds.step (s := .idle) trivial hd hallows hs
  | replace hs => exact ReplaceStage.Holds.step h hd hallows hs

/-- Invocations with different temporary files do not disturb each other. -/
theorem Holds.frame (ht : t.Holds stateFile journal text' d)
    (hdistinct : ∀ a i b j, s.owned = some (a, i) → t.owned = some (b, j) → a ≠ b) :
    t.Holds stateFile journal text' (d.apply parentDir e) := by
  cases t with
  | log t =>
    intro ino hino
    have hdir := ht ino hino
    rw [Disk.dir_apply, hdir]
    cases hs with
    | @log _ _ e hs =>
      cases hs with
      | create i => exact fun _ => absurd (hallows.1.symm.trans hdir) nofun
      | opened | append | sync | settle => exact not_false
    | turn _ hs =>
      exact (ReplaceStage.Holds.spares (s := .idle) trivial hallows hs hjournal (.inl hne.symm)).1
    | replace hs => exact (ReplaceStage.Holds.spares h hallows hs hjournal (.inl hne.symm)).1
  | replace t =>
    refine ReplaceStage.Holds.frame ht hd hallows fun tmp ino howned => ?_
    obtain ⟨htmp, hp⟩ := ReplaceStage.Holds.owned ht howned
    cases hs with
    | log hs => exact hs.leaves hallows hd h (fun heq => hjournal (heq ▸ htmp)) hp
    | turn _ hs =>
      exact ReplaceStage.Holds.apart (s := .idle) trivial ht hd hallows hs not_isTmp nofun
        tmp ino howned
    | replace hs =>
      exact ReplaceStage.Holds.apart h ht hd hallows hs not_isTmp hdistinct tmp ino howned

omit hjournal in
/-- Nothing but the rename changes what the state file may hold. -/
theorem Holds.spares (hapart : ∀ ino, some ino ∈ d.kept journal → some ino ∉ d.kept stateFile)
    (hs' : s' ≠ .replace .renamed) :
    ¬e.Binds stateFile ∧ ∀ ino, some ino ∈ d.kept stateFile → ¬e.Touches ino := by
  cases hs with
  | log hs => exact hs.spares hallows hd h hne hapart
  | turn _ hs =>
    exact ReplaceStage.Holds.spares (s := .idle) trivial hallows hs not_isTmp
      (.inr fun heq => hs' (heq ▸ rfl))
  | replace hs =>
    exact ReplaceStage.Holds.spares h hallows hs not_isTmp (.inr fun heq => hs' (heq ▸ rfl))

omit hd in
theorem Holds.apart (hapart : ∀ ino, some ino ∈ d.kept journal → some ino ∉ d.kept stateFile) :
    ∀ ino, some ino ∈ (d.apply parentDir e).kept journal →
      some ino ∉ (d.apply parentDir e).kept stateFile := by
  refine Disk.apart_apply hapart hne.symm hallows (fun source heq => ?_)
    fun source ino heq hsource => ?_
  · subst heq
    cases hs with
    | log hs => exact nomatch hs
    | turn _ hs => exact nomatch hs
    | replace hs =>
      cases hs with
      | rename => exact hne rfl
  · subst heq
    cases hs with
    | log hs => exact nomatch hs
    | turn _ hs => exact nomatch hs
    | replace hs =>
      cases hs with
      | rename tmp i =>
        obtain rfl : i = ino := Option.some.inj (h.2.1.dir.symm.trans hsource)
        exact h.2.1.others journal fun heq => hjournal (heq ▸ h.1)

end SaveStage

end Saves

section Rests

open StateFile (agentStateToJson)

/-- The state file is the record with the place `now`, and a power cut leaves a record with a place
of `kept`. -/
structure Rests (stateFile journal : CString) (d : PathDisk) (past : List StateFile.AgentState)
    (now : ℕ) (kept : Set ℕ) : Prop where
  coherent : d.Coherent
  settled : d.SettledAt stateFile
  now : ∃ r, past[now]? = some r ∧ d.read stateFile = some (agentStateToJson r)
  kept : ∀ o ∈ d.mayHold stateFile, ∃ k ∈ kept, ∃ r, past[k]? = some r
    ∧ o = some (agentStateToJson r)
  apart : ∀ ino, some ino ∈ d.kept journal → some ino ∉ d.kept stateFile

variable {stateFile journal tmp : CString} {d d' : PathDisk} {past : List StateFile.AgentState}
  {now k ino : ℕ} {kept : Set ℕ} {r record : StateFile.AgentState} {e : PathEffect}

theorem getElem?_snoc {α : Type} {l : List α} {x y : α} (h : l[k]? = some y) :
    (l ++ [x])[k]? = some y :=
  (List.getElem?_append_left (List.getElem?_eq_some_iff.mp h).1).trans h

theorem Rests.grow (h : Rests stateFile journal d past now kept) (record : StateFile.AgentState) :
    Rests stateFile journal d (past ++ [record]) now kept :=
  { h with
    now := by
      obtain ⟨r, hr, hread⟩ := h.now
      exact ⟨r, getElem?_snoc hr, hread⟩
    kept := fun o ho => by
      obtain ⟨k, hk, r, hr, heq⟩ := h.kept o ho
      exact ⟨k, hk, r, getElem?_snoc hr, heq⟩ }

theorem Rests.spared (h : Rests stateFile journal d past now kept)
    (hspares : ¬e.Binds stateFile ∧ ∀ ino, some ino ∈ d.kept stateFile → ¬e.Touches ino)
    (hapart : ∀ ino, some ino ∈ (d.apply parentDir e).kept journal →
      some ino ∉ (d.apply parentDir e).kept stateFile) :
    Rests stateFile journal (d.apply parentDir e) past now kept where
  coherent := h.coherent.apply e
  settled := Disk.settledAt_apply h.settled hspares.1 hspares.2
  now := by
    rw [Disk.read_apply h.coherent hspares.1 hspares.2]
    exact h.now
  kept := fun o ho => h.kept o (Disk.mayHold_apply hspares.1 hspares.2 ho)
  apart := hapart

theorem Rests.renamed (h : Rests stateFile journal d past now kept) (hr : past[k]? = some record)
    (hholds : (ReplaceStage.synced tmp ino).Holds (IsTmp stateFile) (agentStateToJson record) d)
    (hapart : ∀ ino, some ino ∈ (d.apply parentDir (.rename tmp stateFile)).kept journal →
      some ino ∉ (d.apply parentDir (.rename tmp stateFile)).kept stateFile) :
    Rests stateFile journal (d.apply parentDir (.rename tmp stateFile)) past k
      (insert k kept) where
  coherent := h.coherent.apply _
  settled := hholds.rename_settledAt not_isTmp h.settled
  now := ⟨record, hr, hholds.rename_read not_isTmp⟩
  kept := by
    intro o ho
    rcases hholds.rename_mayHold not_isTmp ho with rfl | ho
    · exact ⟨k, Set.mem_insert _ _, record, hr, rfl⟩
    · obtain ⟨j, hj, r, hr, heq⟩ := h.kept o ho
      exact ⟨j, Set.mem_insert_of_mem _ hj, r, hr, heq⟩
  apart := hapart

/-- Where nothing else is left, the state file is the record that is read. -/
theorem Rests.only (h : Rests stateFile journal d past now kept)
    (hkept : d.kept stateFile = {d.dir stateFile}) :
    Rests stateFile journal d past now {now} :=
  { h with
    kept := fun o ho => by
      obtain ⟨r, hr, hread⟩ := h.now
      rw [Disk.mayHold_eq hkept h.settled, hread] at ho
      exact ⟨now, rfl, r, hr, ho⟩ }

theorem Rests.cut (h : Rests stateFile journal d past now kept) (hcut : d.Cut d') :
    ∃ k ∈ kept, Rests stateFile journal d' past k {k} := by
  obtain ⟨k, hk, r, hr, heq⟩ := h.kept _ (hcut.read_mem stateFile)
  refine ⟨k, hk, hcut.coherent, hcut.settledAt _, ⟨r, hr, heq⟩, fun o ho => ?_, fun i hi hi' => ?_⟩
  · rw [hcut.mayHold, heq] at ho
    exact ⟨k, rfl, r, hr, ho⟩
  · rw [hcut.kept] at hi hi'
    exact h.apart i (hi ▸ hcut.dir journal) (hi' ▸ hcut.dir stateFile)

end Rests

section Simulation

open StateFile (agentStateToJson agentStateFromJson)

/-- An invocation, with its phase at the register and its stage with the files. -/
inductive Proceeds (stateFile journal : CString) (d : PathDisk)
    (past : List StateFile.AgentState) :
    Option Invocation → Option LedgerPhase → SaveStage → Prop
  | idle : Proceeds stateFile journal d past none none (.log .closed)
  | loaded {k : ℕ} {r : StateFile.AgentState} (hr : past[k]? = some r) :
    Proceeds stateFile journal d past (some (.loaded r.reread)) (some (.loaded k)) (.log .closed)
  | saving {k : ℕ} {record : StateFile.AgentState} {text : Bytes} {rest : List PathEffect}
      {rc : Option (Except Err Unit)} {stage t : SaveStage} (hr : past[k]? = some record)
      (hpath : Path (Saves stateFile journal (agentStateToJson record) text) stage rest t)
      (hres : rc = some (.ok ()) → t = .replace .settled)
      (hholds : stage.Holds stateFile journal (agentStateToJson record) d) :
    Proceeds stateFile journal d past (some (.saving record rest rc)) (some (stage.phase k)) stage

variable {ι : Type} [DecidableEq ι] {P : Prims} {d : DeployArgs} {deployTx : Tx}
  {stateFile journal : CString} {override : Option CString} {w w' : AgentdWorld ι}
  {s s' : LedgerRegister ι} {past : List StateFile.AgentState} {stage : ι → SaveStage} {i : ι}
  {disk : PathDisk} {inv : Option Invocation} {phase : Option LedgerPhase} {new : SaveStage}
  {record : StateFile.AgentState}

theorem Proceeds.grow (h : Proceeds stateFile journal disk past inv phase new)
    (record : StateFile.AgentState) :
    Proceeds stateFile journal disk (past ++ [record]) inv phase new := by
  cases h with
  | idle => exact .idle
  | loaded hr => exact .loaded (getElem?_snoc hr)
  | saving hr hpath hres hholds => exact .saving (getElem?_snoc hr) hpath hres hholds

/-- The register behind the network, with the stages of the invocations. -/
structure Simulates (stateFile journal : CString) (w : AgentdWorld ι) (s : LedgerRegister ι)
    (past : List StateFile.AgentState) (stage : ι → SaveStage) : Prop where
  inv : s.Inv
  length : past.length = s.last + 1
  rests : Rests stateFile journal w.disk past s.now s.kept
  proceeds : ∀ i, Proceeds stateFile journal w.disk past (w.running i) (s.phase i) (stage i)
  distinct : ∀ i j, i ≠ j → ∀ a x b y, (stage i).owned = some (a, x) →
    (stage j).owned = some (b, y) → a ≠ b
  reported : ∀ r ∈ w.reported, ∃ k ∈ s.done, past[k]? = some r

/-- One invocation goes on while the others stay as they are. -/
theorem proceeds_update {running : ι → Option Invocation} {phases : ι → Option LedgerPhase}
    (h : ∀ j, j ≠ i → Proceeds stateFile journal disk past (running j) (phases j) (stage j))
    (hi : Proceeds stateFile journal disk past inv phase new) (j : ι) :
    Proceeds stateFile journal disk past (Function.update running i inv j)
      (Function.update phases i phase j) (Function.update stage i new j) := by
  rcases eq_or_ne j i with rfl | hne
  · simpa using hi
  · simpa [hne] using h j hne

theorem distinct_update (h : ∀ i j, i ≠ j → ∀ a x b y, (stage i).owned = some (a, x) →
      (stage j).owned = some (b, y) → a ≠ b)
    (hi : ∀ j, j ≠ i → ∀ a x b y, new.owned = some (a, x) → (stage j).owned = some (b, y) → a ≠ b)
    (j k : ι) (hne : j ≠ k) (a : CString) (x : ℕ) (b : CString) (y : ℕ)
    (hj : (Function.update stage i new j).owned = some (a, x))
    (hk : (Function.update stage i new k).owned = some (b, y)) : a ≠ b := by
  rcases eq_or_ne j i with rfl | hji
  · rw [Function.update_self] at hj
    rw [Function.update_of_ne hne.symm] at hk
    exact hi k hne.symm a x b y hj hk
  · rw [Function.update_of_ne hji] at hj
    rcases eq_or_ne k i with rfl | hki
    · rw [Function.update_self] at hk
      exact (hi j hji b y a x hk hj).symm
    · rw [Function.update_of_ne hki] at hk
      exact h j k hne a x b y hj hk

/-- An invocation that owns nothing on the disk goes on. -/
theorem Simulates.set (h : Simulates stateFile journal w s past stage)
    (hinv : (s.enter i phase).Inv)
    (hi : Proceeds stateFile journal w.disk past inv phase new) (hnew : new.owned = none) :
    Simulates stateFile journal (w.set i inv) (s.enter i phase) past
      (Function.update stage i new) where
  inv := hinv
  length := h.length
  rests := h.rests
  proceeds := proceeds_update (fun j _ => h.proceeds j) hi
  distinct := distinct_update h.distinct fun _ _ _ _ _ _ ha => by
    rw [hnew] at ha
    exact nomatch ha
  reported := h.reported

theorem Simulates.load (h : Simulates stateFile journal w s past stage) {text : Bytes}
    {st : StateFile.AgentState} (hread : w.disk.read stateFile = some text)
    (hparse : agentStateFromJson text = .ok st) :
    ∃ s' stage', Simulates stateFile journal (w.set i (some (.loaded st))) s' past stage' := by
  obtain ⟨r, hr, hnow⟩ := h.rests.now
  obtain rfl := Option.some.inj (hnow.symm.trans hread)
  rw [StateFile.agentStateFromJson_agentStateToJson] at hparse
  obtain rfl := Except.ok.inj hparse
  exact ⟨_, _, h.set (h.inv.step (.load i)) (.loaded hr) rfl⟩

theorem Simulates.leave (h : Simulates stateFile journal w s past stage) (i : ι) :
    ∃ s' stage', Simulates stateFile journal (w.set i none) s' past stage' :=
  ⟨_, _, h.set (h.inv.step (.leave i)) .idle rfl⟩

omit [DecidableEq ι] in
/-- What an invocation loaded is a record. -/
theorem Simulates.loaded (h : Simulates stateFile journal w s past stage)
    {st : StateFile.AgentState} (hi : w.running i = some (.loaded st)) :
    ∃ k r, s.phase i = some (.loaded k) ∧ past[k]? = some r ∧ st = r.reread := by
  have hp := h.proceeds i
  rw [hi] at hp
  generalize hphase : s.phase i = phase at hp
  generalize stage i = new at hp
  cases hp with
  | loaded hr => exact ⟨_, _, rfl, hr, rfl⟩

omit [DecidableEq ι] in
theorem Simulates.owned (h : Simulates stateFile journal w s past stage) {tmp : CString} {ino : ℕ}
    (hi : (stage i).owned = some (tmp, ino)) : w.disk.Private tmp ino := by
  have hp := h.proceeds i
  generalize w.running i = running at hp
  generalize s.phase i = phase at hp
  generalize stage i = other at hp hi
  cases hp with
  | idle | loaded => exact nomatch hi
  | saving hr hpath hres hholds =>
    cases other with
    | log => exact nomatch hi
    | replace => exact (ReplaceStage.Holds.owned hholds hi).2

/-- The network takes a transaction that follows the last record. -/
theorem Simulates.send (h : Simulates stateFile journal w s past stage) {n : Network ι}
    {x : Traced PathEffect (Except Err Unit)} {text : Bytes}
    (hi : s.phase i = some (.loaded s.last))
    (hx : Obeys (Saves stateFile journal (agentStateToJson record) text) (.log .closed) x
      fun rc t => rc = .ok () → t = .replace .settled) :
    ∃ s' stage', Simulates stateFile journal
      ({ w with network := n }.set i (some (.saving record x.effects x.result))) s'
      (past ++ [record]) stage' := by
  obtain ⟨t, hpath, hres⟩ := hx
  have hplace : (past ++ [record])[s.last + 1]? = some record := by
    rw [← h.length]
    simp
  refine ⟨_, Function.update stage i (.log .closed), h.inv.step (.win i hi), ?_,
    h.rests.grow record, proceeds_update (fun j _ => (h.proceeds j).grow record)
      (.saving hplace hpath (fun hrc => hres _ hrc rfl) nofun),
    distinct_update h.distinct nofun, fun r hr => ?_⟩
  · rw [List.length_append, h.length]
    rfl
  · obtain ⟨k, hk, hr⟩ := h.reported r hr
    exact ⟨k, hk, getElem?_snoc hr⟩

/-- The disk changes as an invocation goes on. -/
theorem Simulates.effect_of (h : Simulates stateFile journal w s past stage) {e : PathEffect}
    {text : Bytes} {k : ℕ} (hallows : w.disk.Allows e)
    (hsaves : Saves stateFile journal (agentStateToJson record) text (stage i) e new)
    (hholds : (stage i).Holds stateFile journal (agentStateToJson record) w.disk)
    (hjournal : ¬IsTmp stateFile journal) (hne : stateFile ≠ journal)
    (hi : Proceeds stateFile journal (w.disk.apply parentDir e) past inv (some (new.phase k)) new)
    (hinv : s'.Inv) (hlast : s'.last = s.last) (hdone : s.done ⊆ s'.done)
    (hphase : s'.phase = Function.update s.phase i (some (new.phase k)))
    (hrests : Rests stateFile journal (w.disk.apply parentDir e) past s'.now s'.kept) :
    Simulates stateFile journal ({ w with disk := w.disk.apply parentDir e }.set i inv) s' past
      (Function.update stage i new) where
  inv := hinv
  length := h.length.trans (by rw [hlast])
  rests := hrests
  proceeds := by
    rw [hphase]
    refine proceeds_update (fun j hj => ?_) hi
    have hp := h.proceeds j
    generalize w.running j = running at hp
    generalize s.phase j = phase at hp
    have hdistinct := h.distinct i j hj.symm
    generalize stage j = other at hp hdistinct
    cases hp with
    | idle => exact .idle
    | loaded hr => exact .loaded hr
    | saving hr hpath hres hother =>
      exact .saving hr hpath hres
        (hholds.frame hsaves hallows h.rests.coherent hjournal hne hother hdistinct)
  distinct := by
    refine distinct_update h.distinct fun j hj a x b y ha hb => ?_
    rcases SaveStage.owned_of_saves hsaves ha with ha | rfl
    · exact h.distinct i j hj.symm a x b y ha hb
    · rintro rfl
      exact absurd (hallows.1.symm.trans (h.owned hb).dir) nofun
  reported := fun r hr => by
    obtain ⟨k, hk, hr⟩ := h.reported r hr
    exact ⟨k, hdone hk, hr⟩

theorem Simulates.effect (h : Simulates stateFile journal w s past stage) {e : PathEffect}
    {rest : List PathEffect} {rc : Option (Except Err Unit)} (hallows : w.disk.Allows e)
    (hsaving : w.running i = some (.saving record (e :: rest) rc))
    (hjournal : ¬IsTmp stateFile journal) (hne : stateFile ≠ journal) :
    ∃ s' stage', Simulates stateFile journal
      ({ w with disk := w.disk.apply parentDir e }.set i (some (.saving record rest rc))) s' past
      stage' := by
  have hp := h.proceeds i
  rw [hsaving] at hp
  generalize hphase : s.phase i = phase at hp
  generalize hstage : stage i = old at hp
  cases hp with
  | @saving k _ text _ _ _ t hr hpath hres hholds =>
    subst hstage
    obtain ⟨new, hsaves, hpath⟩ := hpath.head
    have hd := h.rests.coherent
    have hi : Proceeds stateFile journal (w.disk.apply parentDir e) past
        (some (.saving record rest rc)) (some (new.phase k)) new :=
      .saving hr hpath hres (hholds.step hsaves hallows hd)
    have hapart := hholds.apart hsaves hallows hjournal hne h.rests.apart
    have hcore := fun (s' : LedgerRegister ι) (hinv : s'.Inv) =>
      h.effect_of hallows hsaves hholds hjournal hne hi hinv
    have hstays : new ≠ .replace .renamed → new.phase k = (stage i).phase k →
        ∃ s' stage', Simulates stateFile journal
          ({ w with disk := w.disk.apply parentDir e }.set i (some (.saving record rest rc))) s'
          past stage' := by
      intro hnew hsame
      refine ⟨s, _, hcore s h.inv rfl subset_rfl ?_ (h.rests.spared
        (hholds.spares hsaves hallows hd hne h.rests.apart hnew) hapart)⟩
      rw [hsame, ← hphase, Function.update_eq_self]
    have hspares := fun hnew => hholds.spares hsaves hallows hd hne h.rests.apart hnew
    obtain ⟨old, hold⟩ : ∃ old, stage i = old := ⟨_, rfl⟩
    rw [hold] at hsaves hholds hphase hstays
    cases hsaves with
    | log => exact hstays nofun rfl
    | turn _ hs =>
      cases hs with
      | create => exact hstays nofun rfl
    | replace hs =>
      cases hs with
      | create | append | sync | unlink | unlinkSynced => exact hstays nofun rfl
      | rename tmp ino =>
        exact ⟨_, _, hcore _ (h.inv.step (.store i k hphase)) rfl subset_rfl rfl
          (h.rests.renamed hr hholds hapart)⟩
      | settle =>
        exact ⟨_, _, hcore _ (h.inv.step (.settle i k hphase)) rfl (Set.subset_insert _ _) rfl
          ((h.rests.spared (hspares nofun) hapart).only (Disk.kept_syncDir hd stateFile))⟩

theorem Simulates.exit (h : Simulates stateFile journal w s past stage) {rc : Except Err Unit}
    (hsaving : w.running i = some (.saving record [] (some rc))) :
    ∃ s' stage', Simulates stateFile journal
      ({ w with reported := w.report record rc }.set i none) s' past stage' := by
  have hp := h.proceeds i
  rw [hsaving] at hp
  generalize hphase : s.phase i = phase at hp
  generalize stage i = new at hp
  cases hp with
  | @saving k _ text _ _ _ t hr hpath hres hholds =>
    have hset : Simulates stateFile journal (w.set i none) _ past _ :=
      h.set (h.inv.step (.leave i)) .idle rfl
    refine ⟨_, _, { hset with reported := ?_ }⟩
    rcases rc with e | ⟨⟨⟩⟩
    · exact h.reported
    · obtain rfl := hpath.eq_of_nil
      obtain rfl := hres rfl
      exact List.forall_mem_append.mpr ⟨h.reported,
        List.forall_mem_singleton.mpr ⟨k, h.inv.phases i _ hphase, hr⟩⟩

theorem Simulates.cut (h : Simulates stateFile journal w s past stage) (hcut : w.disk.Cut disk) :
    ∃ s' stage', Simulates stateFile journal { w with disk := disk, running := fun _ => none } s'
      past stage' := by
  obtain ⟨k, hk, hrests⟩ := h.rests.cut hcut
  exact ⟨_, fun _ => .log .closed, h.inv.step (.cut k hk), h.length, hrests, fun _ => .idle, nofun,
    h.reported⟩

/-- The disk, the invocations and the network are those of one run. -/
def AgentdWorld.Resumes (P : Prims) (d : DeployArgs) (deployTx : Tx) (stateFile journal : CString)
    (w : AgentdWorld ι) (es : List AgentdEvent) (st : AgentState) (this : Covenant.AgentTea)
    (revs : List Tx) (past : List StateFile.AgentState) : Prop :=
  Lineage P d deployTx w.network es st this revs past
    ∧ ∃ s stage, Simulates stateFile journal w s past stage

variable {es : List AgentdEvent} {st : AgentState} {this : Covenant.AgentTea} {revs : List Tx}

omit [DecidableEq ι] in
theorem AgentdWorld.Deployed.resumes (h : w.Deployed P stateFile override d deployTx) :
    ∃ st record, w.Resumes P d deployTx stateFile (journalPath stateFile override) [] st
      (d.contract deployTx) [] [record] := by
  obtain ⟨st, rawHex, woc, network, key, hok, hraw, hsend, hreported, hread⟩ := h.deployed
  obtain ⟨hnamed, hlive⟩ := deployRecord_live hok hraw hsend network key
  generalize StateFile.deployRecord st d network key = record at hnamed hlive hreported hread
  have hsign : signAndBuild deployTx d.sigs = .ok rawHex := by
    simp only [cmdDeploy, bind_eq_ok, orFail_eq_ok, pure_eq_ok, Prod.mk.injEq] at hok
    obtain ⟨-, -, -, -, b, -, rawHex', hsign, rfl, rfl⟩ := hok
    obtain rfl := Option.some.inj hraw
    exact hsign
  have hlineage : Lineage P d deployTx w.network [] st (d.contract deployTx) [] [record] := by
    have hanswers : d.AnswersId (fun bs => (sha256d P bs).1) deployTx := txId_of_sent hsign hsend
    refine ⟨.deploy hok, h.network, Nat.zero_le 1, List.forall_mem_nil _, hanswers,
      List.forall_mem_nil _, ?_, ?_, ?_⟩
    · rw [List.map_singleton, hlive]
      rfl
    · exact List.forall_mem_singleton.mpr hnamed
    · rintro k r hr (hk | hk)
      · simp at hk
      · exact absurd rfl hk
  refine ⟨st, record, hlineage, ⟨0, 0, {0}, {0}, fun _ => none⟩, fun _ => .log .closed, ?_⟩
  refine ⟨⟨rfl, fun k hk => hk.le, le_rfl, fun k hk j hj => ?_, ?_, ?_⟩, rfl,
    ⟨h.coherent, h.settled, ⟨record, rfl, hread⟩, fun o ho => ?_, h.journal⟩, fun i => ?_, ?_, ?_⟩
  · exact hj.le.trans hk.ge
  · rintro _ _ ⟨⟩
  · rintro _ _ _ _ ⟨⟩
  · rw [Disk.mayHold_eq h.kept h.settled, hread] at ho
    exact ⟨0, rfl, record, rfl, ho⟩
  · rw [h.running i]
    exact .idle
  · rintro _ _ _ _ _ _ _ ⟨⟩
  · rw [hreported]
    exact List.forall_mem_singleton.mpr ⟨0, rfl, rfl⟩

theorem AgentdWorld.Resumes.step
    (h : w.Resumes P d deployTx stateFile (journalPath stateFile override) es st this revs past)
    (hs : w.Step P d.artifact stateFile override w')
    (hjournal : ¬IsTmp stateFile (journalPath stateFile override))
    (hne : stateFile ≠ journalPath stateFile override) :
    ∃ es st this revs past, w'.Resumes P d deployTx stateFile (journalPath stateFile override)
      es st this revs past := by
  obtain ⟨hlineage, s, stage, hsim⟩ := h
  cases hs with
  | load i hidle hread hparse =>
    obtain ⟨s', stage', hsim'⟩ := hsim.load (i := i) hread hparse
    exact ⟨es, st, this, revs, past, hlineage, s', stage', hsim'⟩
  | @send i st' record cmd tx rawHex spent woc jos os hloaded hlive hbuilds hsend haccepts =>
    obtain ⟨k, r, hphase, hr, rfl⟩ := hsim.loaded hloaded
    have hnamed := hlineage.named r (List.mem_of_getElem? hr)
    have hobeys : Obeys (Saves stateFile (journalPath stateFile override)
        (agentStateToJson record) _) (.log .closed)
        (persistStep stateFile override cmd.tag cmd.args.txid record jos os) _ :=
      persistStep_obeys
    have hlast : k + 1 = past.length → s.phase i = some (.loaded s.last) := by
      intro hk
      rw [hsim.length] at hk
      obtain rfl : k = s.last := by omega
      exact hphase
    cases cmd with
    | step op =>
      obtain ⟨hnamed', hok, hspends⟩ := hbuilds.step_live hnamed.reread hsend
      rw [hnamed.reread_live] at hok hspends
      obtain ⟨hk, rfl, rfl⟩ := hlineage.last hr hspends haccepts
      obtain ⟨s', stage', hsim'⟩ := hsim.send (hlast hk) hobeys
      exact ⟨_, _, _, _, _, hlineage.step hr hk hnamed' hok hspends hsend, s', stage', hsim'⟩
    | revoke a =>
      obtain ⟨hnamed', hrecord, hspends⟩ := hbuilds.revoke_live hnamed.reread
      rw [hnamed.reread_live] at hrecord hspends
      obtain ⟨hk, rfl, rfl⟩ := hlineage.last hr hspends haccepts
      obtain ⟨s', stage', hsim'⟩ := hsim.send (hlast hk) hobeys
      exact ⟨_, _, _, _, _, hlineage.revoke hr hk rfl hnamed' hrecord hspends, s', stage', hsim'⟩
  | effect i hsaving hallows =>
    obtain ⟨s', stage', hsim'⟩ := hsim.effect hallows hsaving hjournal hne
    exact ⟨es, st, this, revs, past, hlineage, s', stage', hsim'⟩
  | exit i hsaving =>
    obtain ⟨s', stage', hsim'⟩ := hsim.exit hsaving
    exact ⟨es, st, this, revs, past, hlineage, s', stage', hsim'⟩
  | stop i =>
    obtain ⟨s', stage', hsim'⟩ := hsim.leave i
    exact ⟨es, st, this, revs, past, hlineage, s', stage', hsim'⟩
  | other tx haccepts =>
    exact ⟨es, st, this, revs, past, hlineage.other tx, s, stage,
      hsim.inv, hsim.length, hsim.rests, hsim.proceeds, hsim.distinct, hsim.reported⟩
  | cut hcut =>
    obtain ⟨s', stage', hsim'⟩ := hsim.cut hcut
    exact ⟨es, st, this, revs, past, hlineage, s', stage', hsim'⟩

theorem AgentdWorld.Deployed.run {w₀ : AgentdWorld ι}
    (h : w₀.Deployed P stateFile override d deployTx)
    (hrun : ReflTransGen (AgentdWorld.Step P d.artifact stateFile override) w₀ w)
    (hjournal : ¬IsTmp stateFile (journalPath stateFile override))
    (hne : stateFile ≠ journalPath stateFile override) :
    ∃ es st this revs past, w.Resumes P d deployTx stateFile (journalPath stateFile override)
      es st this revs past := by
  induction hrun with
  | refl =>
    obtain ⟨st, record, hresumes⟩ := h.resumes
    exact ⟨[], st, d.contract deployTx, [], [record], hresumes⟩
  | tail _ hs ih =>
    obtain ⟨es, st, this, revs, past, hresumes⟩ := ih
    exact hresumes.step hs hjournal hne

/-- Whatever invocations run, are killed or lose their power after a deploy, they make one run of
the agent, and the state file is left with a record of it, none before the record of an invocation
that exited with 0. -/
theorem killed_agents_resume {w₀ : AgentdWorld ι} (h : w₀.Deployed P stateFile override d deployTx)
    (hrun : ReflTransGen (AgentdWorld.Step P d.artifact stateFile override) w₀ w)
    (hjournal : ¬IsTmp stateFile (journalPath stateFile override))
    (hne : stateFile ≠ journalPath stateFile override) :
    w.OneRun P stateFile d deployTx := by
  obtain ⟨es, st, this, revs, past, hlineage, s, stage, hsim⟩ := h.run hrun hjournal hne
  refine ⟨es, st, this, revs, past, hlineage.run, hlineage.sent, hlineage.one,
    hlineage.revs_spend, hlineage.lives, fun o ho => ?_⟩
  obtain ⟨k, hk, record, hr, rfl⟩ := hsim.rests.kept o ho
  refine ⟨k, record, hr, rfl, ⟨record.reread, StateFile.agentStateFromJson_agentStateToJson record,
    (hlineage.named record (List.mem_of_getElem? hr)).reread_live⟩, fun r hreported => ?_⟩
  obtain ⟨j, hj, hrj⟩ := hsim.reported r hreported
  exact ⟨j, hsim.inv.done_le k hk j hj, hrj⟩

/-- Whatever is left of the state file is read as a state whose counters and agent key are those of
its tip, and whose tip is the transaction it names. -/
theorem left_record_mirrors_tip {w₀ : AgentdWorld ι}
    (h : w₀.Deployed P stateFile override d deployTx) (hstateful : d.artifact.stateful = true)
    (hrun : ReflTransGen (AgentdWorld.Step P d.artifact stateFile override) w₀ w)
    (hjournal : ¬IsTmp stateFile (journalPath stateFile override))
    (hne : stateFile ≠ journalPath stateFile override) :
    ∀ o ∈ w.disk.mayHold stateFile, ∃ text read, o = some text
      ∧ agentStateFromJson text = .ok read
      ∧ read.live.MirrorsTip fun bs => (sha256d P bs).1 := by
  intro o ho
  obtain ⟨es, st, this, revs, past, hlineage, s, stage, hsim⟩ := h.run hrun hjournal hne
  obtain ⟨k, -, record, hr, rfl⟩ := hsim.rests.kept o ho
  have hmem := List.mem_of_getElem? hr
  refine ⟨_, record.reread, rfl, StateFile.agentStateFromJson_agentStateToJson record, ?_⟩
  rw [(hlineage.named record hmem).reread_live]
  obtain ⟨hmirrors, _, _, hcarries⟩ :=
    hlineage.run.carries hstateful hlineage.deploy_answers hlineage.answers
  have hlive := List.mem_map_of_mem (f := StateFile.AgentState.live) hmem
  rw [hlineage.lives] at hlive
  simp only [List.mem_append, List.mem_map, List.mem_singleton] at hlive
  rcases hlive with (⟨e, he, heq⟩ | heq) | ⟨_, -, heq⟩
  · exact heq ▸ hmirrors e he
  · exact heq ▸ hcarries.mirrors
  · exact heq ▸ hcarries.mirrors

end Simulation

section Examples

def exampleWoc : WocClient := ⟨fun _ => .ok [], .ok 100, fun _ => .ok ()⟩

def exampleRecord (st : AgentState) : StateFile.AgentState :=
  StateFile.deployRecord st exampleDeploy (StateFile.key "mainnet") (Block.fill 33 3)

def exampleWorld (st : AgentState) : AgentdWorld ℕ where
  disk := exampleDisk (StateFile.agentStateToJson (exampleRecord st))
  network := []
  running _ := none
  reported := [exampleRecord st]

/-- The journal cannot be opened, and of the state file only a temporary one is created. -/
def exampleJournalAnswers : JournalAnswers :=
  ⟨none, true, true, true, [], true, true, ⟨true, true, true⟩⟩

def exampleAtomicAnswers : AtomicAnswers :=
  ⟨some (Block.fill 6 97, 7), false, [], true, true, true, true, ⟨true, true, true⟩⟩

/-- A power cut may take the temporary file. -/
theorem exampleDisk_cut (text : Bytes) :
    ((exampleDisk text).apply parentDir (.create exampleTmp 7)).Cut (exampleDisk text) where
  dir name := by
    rcases eq_or_ne name exampleTmp with rfl | hne
    · simp [Disk.apply, exampleDisk]
    · simp [Disk.apply, exampleDisk, Function.update_of_ne hne]
  kept _ := rfl
  bytes ino := by
    rcases eq_or_ne ino 7 with rfl | hne
    · simp [Disk.apply, exampleDisk]
    · simp [Disk.apply, exampleDisk, Function.update_of_ne hne, FileBytes.settled]
  settled _ := rfl

theorem exampleWorld_deployed {deployTx : Tx} {st : AgentState} {rawHex : CString}
    (hok : cmdDeploy exampleDeploy = .ok (deployTx, st)) (hraw : st.tip.rawTxHex = some rawHex)
    (hsend : chainBroadcastSend codePrims exampleWoc rawHex = .ok exampleDeploy.txid) :
    (exampleWorld st).Deployed codePrims exampleStateFile none exampleDeploy deployTx where
  deployed := ⟨st, rawHex, exampleWoc, _, _, hok, hraw, hsend, rfl, by
    simp [exampleWorld, exampleDisk, Disk.read, FileBytes.settled, exampleRecord]⟩
  coherent := ⟨fun _ => rfl, fun _ => rfl⟩
  kept := rfl
  settled _ _ := ⟨_, rfl⟩
  journal ino h := by
    have hnone : some ino = if exampleJournal = exampleStateFile then some 0 else none := h
    rw [if_neg exampleJournal_ne] at hnone
    cases hnone
  network := rfl
  running _ := rfl

/-- No output is spent. -/
def exampleSpent (_ : CString) (_ : UInt32) : Except Err Bool := .ok false

theorem AgentdWorld.running_set (w : AgentdWorld ℕ) (i : ℕ) (inv : Option Invocation) :
    (w.set i inv).running i = inv := Function.update_self ..

abbrev ExampleStep : AgentdWorld ℕ → AgentdWorld ℕ → Prop :=
  AgentdWorld.Step codePrims exampleDeploy.artifact exampleStateFile none

/-- What the recovery does to the disk is to create its temporary file. -/
theorem persistStep_exampleRecover (record : StateFile.AgentState) :
    (persistStep exampleStateFile none (AgentdCommand.step exampleRecover).tag
      exampleRecover.args.txid record exampleJournalAnswers exampleAtomicAnswers).effects
      = [.create exampleTmp 7,
        .unlink exampleTmp] := rfl

/-- After a deploy the network takes a recovery, and the power goes when its journal could not be
opened and its temporary file could not be made private. -/
theorem exampleWorld_killed : ∃ (deployTx : Tx) (w₀ w : AgentdWorld ℕ),
    w₀.Deployed codePrims exampleStateFile none exampleDeploy deployTx
      ∧ ReflTransGen ExampleStep w₀ w ∧ w.network.sent.length = 1 := by
  obtain ⟨⟨deployTx, st⟩, hdeploy, ⟨rawHex, hraw, hsend⟩, ⟨tx, next⟩, hrecover, hfits, rawHex',
      hraw', hsend'⟩ :
      ∃ r, cmdDeploy exampleDeploy = .ok r
        ∧ (∃ rawHex ∈ r.2.tip.rawTxHex,
          chainBroadcastSend codePrims exampleWoc rawHex = .ok exampleDeploy.txid)
        ∧ ∃ r', agentdStep codePrims exampleDeploy.artifact r.2 exampleRecover = .ok r'
          ∧ (StateFile.runtimeRecord r'.2.state).live = r'.2.state
          ∧ ∃ rawHex ∈ r'.2.tip.rawTxHex,
            chainBroadcastSend codePrims exampleWoc rawHex
              = .ok exampleRecover.args.txid := by
    decide +kernel
  have hdeployed := exampleWorld_deployed hdeploy hraw hsend
  obtain ⟨hnamed, hlive⟩ :=
    deployRecord_live hdeploy hraw hsend (StateFile.key "mainnet") (Block.fill 33 3)
  have hbuilds : (AgentdCommand.step exampleRecover).Builds codePrims
      exampleDeploy.artifact (exampleRecord st).reread tx rawHex'
      ((exampleRecord st).reread.recovered next exampleRecover.args.txid) := by
    have hread : (exampleRecord st).reread.live = st := hnamed.reread_live.trans hlive
    refine .recover ?_ hfits hraw'
    rw [hread]
    exact hrecover
  obtain ⟨w₁, hload, hloaded, hnetwork, hdisk⟩ : ∃ w₁, ExampleStep (exampleWorld st) w₁
      ∧ w₁.running 0 = some (.loaded (exampleRecord st).reread) ∧ w₁.network = []
      ∧ w₁.disk = exampleDisk (StateFile.agentStateToJson (exampleRecord st)) := by
    refine ⟨_, .load 0 rfl ?_ (StateFile.agentStateFromJson_agentStateToJson (exampleRecord st)),
      AgentdWorld.running_set .., rfl, rfl⟩
    simp [exampleWorld, exampleDisk, Disk.read, FileBytes.settled]
  obtain ⟨w₂, hstep, ⟨record, rc, hsaving⟩, hsent, hdisk'⟩ : ∃ w₂, ExampleStep w₁ w₂
      ∧ (∃ record rc, w₂.running 0
        = some (.saving record [.create exampleTmp 7, .unlink exampleTmp] rc))
      ∧ w₂.network.sent.length = 1 ∧ w₂.disk = w₁.disk := by
    refine ⟨_, .send 0 exampleJournalAnswers exampleAtomicAnswers hloaded
      (fun _ _ => (rfl : exampleSpent _ _ = .ok false)) hbuilds hsend' ?_, ⟨_, _,
      (AgentdWorld.running_set ..).trans (congrArg (fun es => some (Invocation.saving _ es _))
        (persistStep_exampleRecover _))⟩, ?_, rfl⟩
    · rw [hnetwork]
      rintro _ _ ⟨_, ht, _⟩
      cases ht
    · rw [hnetwork]
      rfl
  have hallows := exampleDisk_allows (StateFile.agentStateToJson (exampleRecord st)) exampleTmp_ne
  have hcut := exampleDisk_cut (StateFile.agentStateToJson (exampleRecord st))
  rw [← hdisk, ← hdisk'] at hallows
  nth_rewrite 1 [← hdisk, ← hdisk'] at hcut
  exact ⟨deployTx, _, _, hdeployed,
    .tail (.tail (.tail (.single hload) hstep) (.effect 0 hsaving hallows)) (.cut hcut), hsent⟩

theorem killed_recovery_resumes : ∃ (deployTx : Tx) (w : AgentdWorld ℕ),
    w.network.sent.length = 1
      ∧ w.OneRun codePrims exampleStateFile exampleDeploy deployTx := by
  obtain ⟨deployTx, w₀, w, hdeployed, hrun, hsent⟩ := exampleWorld_killed
  exact ⟨deployTx, w, hsent, killed_agents_resume hdeployed hrun exampleJournal_not_isTmp
    exampleJournal_ne.symm⟩

theorem killed_recovery_mirrors_tip : ∃ w : AgentdWorld ℕ,
    w.network.sent.length = 1 ∧ ∀ o ∈ w.disk.mayHold exampleStateFile, ∃ text read, o = some text
      ∧ StateFile.agentStateFromJson text = .ok read
      ∧ read.live.MirrorsTip fun bs => (sha256d codePrims bs).1 := by
  obtain ⟨deployTx, w₀, w, hdeployed, hrun, hsent⟩ := exampleWorld_killed
  exact ⟨w, hsent, left_record_mirrors_tip hdeployed rfl hrun exampleJournal_not_isTmp
    exampleJournal_ne.symm⟩

end Examples

end BonsaiChain
