import BonsaiChain.AgentdPersistence
import BonsaiChain.Lib.FileReplace
import BonsaiChain.Lib.LineLog

/-!
# What a power cut leaves of the agent's files

The two calls follow the two automata of the library, whatever the system answers, so the state file
holds its old or its new text wherever the call is stopped, and the journal every line that was
reported as written.
-/

namespace BonsaiChain

open Lib Traced

section Calls

variable {σ : Type} {R : σ → PathEffect → σ → Prop} {s t : σ} {e : PathEffect} {ok : Bool}
  {next : Traced PathEffect (Except Err Unit)} {rc : Except Err Unit}
  {Q : Except Err Unit → σ → Prop}

theorem perform_obeys (hs : R s e t) (hok : Q (.ok ()) t) (herr : Q (.error .epersist) s) :
    Obeys R s (perform ok e) Q := by
  cases ok with
  | false => exact .pure herr
  | true => exact Obeys.bind (Q := fun _ u => u = t) (.emit hs rfl) fun _ u hu => .pure (hu ▸ hok)

/-- A call after others that is left out where they failed. -/
theorem whenOk_obeys (hok : rc = .ok () → Obeys R s next Q)
    (herr : ∀ e, rc = .error e → Q rc s) : Obeys R s (whenOk rc next) Q := by
  rcases rc with e | ⟨⟨⟩⟩
  · exact .pure (herr e rfl)
  · exact hok rfl

/-- The loop appends the data piece by piece, all of it where it succeeds. -/
theorem writeAll_obeys {ino : ℕ} {f : Bytes → σ}
    (hR : ∀ bytes more, R (f bytes) (.append ino more) (f (bytes ++ more))) (data : Bytes)
    (answers : List WriteAnswer) : ∀ done, Obeys R (f done) (writeAll ino data answers)
      fun rc t => ∃ bytes, t = f bytes ∧ (rc = .ok () → bytes = done ++ data) := by
  fun_induction writeAll ino data answers with
  | case1 => exact fun done => .pure ⟨done, rfl, fun _ => (List.append_nil _).symm⟩
  | case2 => exact fun done => .running
  | case3 _ _ _ ih => exact ih
  | case4 | case5 => exact fun done => .pure ⟨done, rfl, nofun⟩
  | case6 b data n answers ih =>
    intro done
    have hemit : Obeys R (f done) (emit (.append ino ((b :: data).take (n + 1))))
        fun _ t => t = f (done ++ (b :: data).take (n + 1)) := .emit (hR done _) rfl
    refine hemit.bind fun _ t ht => ?_
    subst ht
    refine (ih _).mono fun rc t ⟨bytes, heq, hbytes⟩ => ⟨bytes, heq, fun hrc => ?_⟩
    rw [hbytes hrc, List.append_assoc, List.take_append_drop]

theorem fsyncParentDir_obeys {path : CString} {os : DirAnswers}
    (hs : R s (.syncDir (parentDir path)) t) :
    Obeys R s (fsyncParentDir path os) fun rc u => rc = .ok () → u = t := by
  unfold fsyncParentDir
  split_ifs with hpath hopens
  · exact .pure nofun
  · exact .pure nofun
  · refine Obeys.bind (Q := fun rc u => rc = .ok () → u = t)
      (perform_obeys hs (fun _ => rfl) nofun) fun rc u hu => .pure fun hrc => hu ?_
    rcases rc with e | ⟨⟨⟩⟩
    · exact nomatch hrc
    · rfl

end Calls

section WriteFile

variable {path text : CString} {os : AtomicAnswers}

/-- The names `mkstemp` may choose for a path. -/
def IsTmp (path name : CString) : Prop := ∃ suffix, name = tmpPath path suffix

theorem not_isTmp : ¬IsTmp path path := by
  rintro ⟨suffix, h⟩
  have hlen := congrArg List.length h
  simp only [tmpPath, List.length_append, suffix.2] at hlen
  omega

/-- The file is written, or it is written and synced. -/
def Written (tmp : CString) (ino : ℕ) (rc : Except Err Unit) (s : ReplaceStage CString ℕ UInt8) :
    Prop :=
  s = .synced tmp ino ∨ (∃ bytes, s = .writing tmp ino bytes) ∧ rc ≠ .ok ()

theorem unlinkTmp_obeys {tmp : CString} {ino : ℕ} {rc : Except Err Unit}
    {s : ReplaceStage CString ℕ UInt8} (h : Written tmp ino rc s) (e : Err) :
    Obeys (Replaces parentDir (IsTmp path) path text) s (unlinkTmp tmp os e)
      fun rc s => rc = .ok () → s = .settled := by
  refine Obeys.bind (Q := fun _ _ => True) ?_ fun _ _ _ => .pure nofun
  rcases h with rfl | ⟨⟨bytes, rfl⟩, -⟩
  · exact perform_obeys (.unlinkSynced tmp ino) trivial trivial
  · exact perform_obeys (.unlink tmp ino bytes) trivial trivial

/-- The calls that replace a file; it is replaced where they succeed. -/
theorem agentdWriteFileAtomic_obeys :
    Obeys (Replaces parentDir (IsTmp path) path text) .idle (agentdWriteFileAtomic path text os)
      fun rc s => rc = .ok () → s = .settled := by
  unfold agentdWriteFileAtomic
  split
  · exact .pure nofun
  split
  · exact .pure nofun
  rename_i suffix ino _
  let tmp := tmpPath path suffix
  refine Obeys.bind (Q := fun _ s => s = .writing tmp ino [])
    (.emit (.create tmp ino ⟨suffix, rfl⟩) rfl) fun _ s hs => ?_
  subst hs
  refine Obeys.bind
    (Q := fun rc s => ∃ bytes, s = .writing tmp ino bytes ∧ (rc = .ok () → bytes = text))
    (whenOk_obeys (fun _ => ?_) fun e he => ⟨[], rfl, by rw [he]; exact nofun⟩)
    fun rc s hs => ?_
  · exact writeAll_obeys (f := ReplaceStage.writing tmp ino) (.append tmp ino) text os.writes []
  obtain ⟨bytes, rfl, hbytes⟩ := hs
  refine Obeys.bind (Q := Written tmp ino) (whenOk_obeys (fun hrc => ?_) fun e he => ?_)
    fun rc s hs => ?_
  · obtain rfl := hbytes hrc
    exact perform_obeys (.sync tmp ino) (.inl rfl) (.inr ⟨⟨_, rfl⟩, nofun⟩)
  · exact .inr ⟨⟨bytes, rfl⟩, by rw [he]; exact nofun⟩
  split
  · exact unlinkTmp_obeys hs _
  · rename_i hclosed
    have hrc : rc = .ok () := by
      rcases rc with e | ⟨⟨⟩⟩
      · exact nomatch hclosed
      · rfl
    obtain rfl : s = .synced tmp ino := hs.resolve_right fun h => h.2 hrc
    refine Obeys.bind
      (Q := fun rc s => rc = .ok () ∧ s = .renamed ∨ rc ≠ .ok () ∧ s = .synced tmp ino)
      (perform_obeys (.rename tmp ino) (.inl ⟨rfl, rfl⟩) (.inr ⟨nofun, rfl⟩)) fun rc s hs => ?_
    rcases hs with ⟨rfl, rfl⟩ | ⟨hrc, rfl⟩
    · exact fsyncParentDir_obeys .settle
    · rcases rc with e | ⟨⟨⟩⟩
      · have hwritten : Written tmp ino (.error e) (.synced tmp ino) := .inl rfl
        exact unlinkTmp_obeys hwritten e
      · exact absurd rfl hrc

/-- Wherever the replacing of a file is stopped, a power cut leaves the file as it may have been
before, or the whole text; after a success it leaves the text. Other files stay, but for temporary
ones. -/
theorem writeFile_never_torn {d d' : PathDisk} {es : List PathEffect} (hd : d.Coherent)
    (hes : es <+: (agentdWriteFileAtomic path text os).effects)
    (hdisk : Path (Disk.Step parentDir) d es d') :
    d'.mayHold path ⊆ insert (some text) (d.mayHold path)
      ∧ ((agentdWriteFileAtomic path text os).result = some (.ok ()) →
        es = (agentdWriteFileAtomic path text os).effects → d'.mayHold path = {some text})
      ∧ ∀ name, ¬IsTmp path name → name ≠ path → d'.mayHold name ⊆ d.mayHold name := by
  have hobeys : Obeys _ _ (agentdWriteFileAtomic path text os) _ :=
    agentdWriteFileAtomic_obeys
  obtain ⟨s, hpath⟩ := hobeys.stopped hes
  obtain ⟨-, -, halone, hothers⟩ := Replaces.alone hpath hdisk hd not_isTmp
  refine ⟨halone.subset, fun hok heq => ?_, hothers⟩
  obtain ⟨t, hpath, hres⟩ := hobeys
  obtain rfl := hres _ hok rfl
  rw [← heq] at hpath
  exact (Replaces.alone hpath hdisk hd not_isTmp).2.2.1

end WriteFile

section Journal

variable {stateFile tag txid path line : CString} {override : Option CString} {os : JournalAnswers}

theorem appendLine_obeys :
    Obeys (WritesLine parentDir path line) .closed (appendLine path line os)
      fun rc s => rc = .ok () → ∃ ino, s = .synced ino := by
  unfold appendLine
  split
  · exact .pure nofun
  rename_i ino created _
  refine Obeys.bind (Q := fun _ s => s = .writing ino []) (.emit ?_ rfl) fun _ s hs => ?_
  · cases created with
    | false => exact .opened ino
    | true => exact .create ino
  subst hs
  refine Obeys.bind
    (Q := fun rc s => ∃ bytes, s = .writing ino bytes ∧ (rc = .ok () → bytes = line))
    (whenOk_obeys (fun _ => ?_) fun e he => ⟨[], rfl, by rw [he]; exact nofun⟩)
    fun rc s hs => ?_
  · exact writeAll_obeys (f := LogStage.writing ino) (.append ino) line os.writes []
  obtain ⟨bytes, rfl, hbytes⟩ := hs
  refine Obeys.bind (Q := fun rc s => rc = .ok () → s = .synced ino)
    (whenOk_obeys (fun hrc => ?_) fun e he => ?_) fun rc s hs => .pure fun hrc => ⟨ino, hs ?_⟩
  · obtain rfl := hbytes hrc
    exact perform_obeys (.sync ino) (fun _ => rfl) nofun
  · rw [he]
    exact nofun
  · rcases rc with e | ⟨⟨⟩⟩
    · exact nomatch hrc
    · rfl

theorem writeJournal_obeys :
    Obeys (WritesLine parentDir path line) .closed (writeJournal path line os)
      fun rc s => rc = .ok () → s = .settled := by
  refine appendLine_obeys.bind fun rc s hs => whenOk_obeys (fun hrc => ?_) fun e he => ?_
  · obtain ⟨ino, rfl⟩ := hs hrc
    exact fsyncParentDir_obeys (.settle ino)
  · rw [he]
    exact nofun

theorem agentdJournalBroadcast_obeys :
    Obeys (WritesLine parentDir (journalPath stateFile override) (journalLine tag txid)) .closed
      (agentdJournalBroadcast stateFile tag txid override os)
      fun rc s => rc = .ok () → s = .settled := by
  unfold agentdJournalBroadcast
  split_ifs
  · exact .pure nofun
  · exact .pure nofun
  · exact .pure nofun
  · exact .pure nofun
  · exact writeJournal_obeys

/-- What every run keeps. -/
theorem JournalRun.keepsLines {d d' : PathDisk} {lines : List CString} (hd : d.Coherent)
    (h : JournalRun stateFile override d lines d') :
    d'.Coherent ∧ d'.KeepsLines (journalPath stateFile override) lines := by
  induction h with
  | start => exact ⟨hd, .inl rfl⟩
  | stopped tag txid os h hes hdisk ih =>
    have hobeys : Obeys _ _ (agentdJournalBroadcast stateFile tag txid override os) _ :=
      agentdJournalBroadcast_obeys
    obtain ⟨s, hpath⟩ := hobeys.stopped hes
    obtain ⟨hd', hlines, -⟩ := WritesLine.alone hpath hdisk ih.1 ih.2
    exact ⟨hd', hlines⟩
  | recorded tag txid os h hdisk hok ih =>
    have hobeys : Obeys _ _ (agentdJournalBroadcast stateFile tag txid override os) _ :=
      agentdJournalBroadcast_obeys
    obtain ⟨s, hpath, hres⟩ := hobeys
    obtain ⟨hd', -, hholds⟩ := WritesLine.alone hpath hdisk ih.1 ih.2
    obtain rfl := hres _ hok rfl
    exact ⟨hd', hholds⟩
  | other e h hallows hfree ih =>
    exact ⟨ih.1.apply e, ih.2.apply ih.1 hallows fun hb => absurd hb hfree⟩
  | cut h hcut ih => exact ⟨hcut.coherent, hcut.keepsLines ih.2⟩

/-- Whatever a power cut leaves of the journal carries the line of every call that succeeded, whole
and in the order of the calls, killed and failed calls between them. -/
theorem journal_lines_survive {d d' : PathDisk} {lines : List CString} (hd : d.Coherent)
    (h : JournalRun stateFile override d lines d') (hne : lines ≠ []) :
    ∀ o ∈ d'.mayHold (journalPath stateFile override),
      ∃ text, o = some text ∧ HoldsLines lines text :=
  (h.keepsLines hd).2.mayHold hne

end Journal

section Examples

open Disk.Step (cons)

def exampleStateFile : CString := ascii "agent.json"

def exampleJournal : CString := journalPath exampleStateFile none

def exampleTmp : CString := tmpPath exampleStateFile (Block.fill 6 97)

/-- The state file holds `text`, and nothing else is there. -/
def exampleDisk (text : Bytes) : PathDisk where
  file _ := .settled text
  dir name := if name = exampleStateFile then some 0 else none
  kept name := {if name = exampleStateFile then some 0 else none}

theorem exampleDisk_coherent (text : Bytes) : (exampleDisk text).Coherent :=
  ⟨fun _ => rfl, fun _ => rfl⟩

theorem exampleDisk_allows (text : Bytes) {name : CString} (hne : name ≠ exampleStateFile) :
    (exampleDisk text).Allows (.create name 7 : PathEffect) := by
  refine ⟨show (if _ then some 0 else none) = none from if_neg hne, fun name h => ?_⟩
  simp only [exampleDisk, Set.mem_singleton_iff] at h
  split at h <;> simp at h

theorem exampleTmp_ne : exampleTmp ≠ exampleStateFile := by decide

theorem exampleJournal_ne : exampleJournal ≠ exampleStateFile := by decide

theorem exampleJournal_not_isTmp : ¬IsTmp exampleStateFile exampleJournal := by
  rintro ⟨suffix, h⟩
  have htake := congrArg (List.take 15) h
  rw [tmpPath, List.take_left' (by decide)] at htake
  exact absurd htake (by decide)

/-- The first `write` is interrupted and the second takes one byte. -/
def exampleWrites : AtomicAnswers :=
  ⟨some (Block.fill 6 97, 7), true, [.interrupted, .wrote 1, .wrote 9], true, true, true, true,
    ⟨true, true, true⟩⟩

theorem stateFile_replaced : ∃ d' : PathDisk,
    Path (Disk.Step parentDir) (exampleDisk (ascii "old"))
      (agentdWriteFileAtomic exampleStateFile (ascii "new") exampleWrites).effects d'
      ∧ d'.mayHold exampleStateFile = {some (ascii "new")} := by
  have heffects : (agentdWriteFileAtomic exampleStateFile (ascii "new") exampleWrites).effects
      = [.create exampleTmp 7, .append 7 (ascii "n"), .append 7 (ascii "ew"), .sync 7,
        .rename exampleTmp exampleStateFile, .syncDir (ascii ".")] := rfl
  obtain ⟨d', hpath⟩ : ∃ d', Path (Disk.Step parentDir) (exampleDisk (ascii "old"))
      (agentdWriteFileAtomic exampleStateFile (ascii "new") exampleWrites).effects d' := by
    rw [heffects]
    refine ⟨_, cons (exampleDisk_allows _ exampleTmp_ne) (cons trivial (cons trivial
      (cons trivial (cons ⟨exampleTmp_ne, ?_⟩ (cons trivial .nil)))))⟩
    simp [Disk.apply]
  exact ⟨d', hpath, (writeFile_never_torn (exampleDisk_coherent _) List.prefix_rfl hpath).2.1 rfl
    rfl⟩

/-- The journal is there, as file 7, or is created. -/
def exampleOpens (created : Bool) : JournalAnswers :=
  ⟨some (7, created), true, true, true, [.wrote 9, .wrote 99], true, true, ⟨true, true, true⟩⟩

/-- A recovery is journaled, and an action is killed in the middle of its line. -/
theorem journaled_recovery_survives : ∃ d' : PathDisk,
    JournalRun exampleStateFile none (exampleDisk []) [journalLine (ascii "recover")
      (List.replicate 64 97)] d'
      ∧ ∀ o ∈ d'.mayHold exampleJournal, ∃ text, o = some text
        ∧ HoldsLines [journalLine (ascii "recover") (List.replicate 64 97)] text := by
  have heffects : (agentdJournalBroadcast exampleStateFile (ascii "recover") (List.replicate 64 97)
      none (exampleOpens true)).effects
      = [.create exampleJournal 7, .append 7 (ascii "recover a"),
        .append 7 (List.replicate 63 97 ++ [10]), .sync 7, .syncDir (ascii ".")] := rfl
  have hkilled : [.opened exampleJournal 7, .append 7 (ascii "action bb")]
      <+: (agentdJournalBroadcast exampleStateFile (ascii "action") (List.replicate 64 98)
        none (exampleOpens false)).effects :=
    ⟨[.append 7 (List.replicate 62 98 ++ [10]), .sync 7, .syncDir (ascii ".")], rfl⟩
  obtain ⟨d₁, hpath, hdir⟩ : ∃ d₁, Path (Disk.Step parentDir) (exampleDisk [])
      (agentdJournalBroadcast exampleStateFile (ascii "recover") (List.replicate 64 97) none
        (exampleOpens true)).effects d₁ ∧ d₁.dir exampleJournal = some 7 := by
    rw [heffects]
    refine ⟨_, cons (exampleDisk_allows _ exampleJournal_ne) (cons trivial (cons trivial
      (cons trivial (cons trivial .nil)))), ?_⟩
    simp [Disk.apply]
  have hrun := JournalRun.stopped _ _ _ (.recorded _ _ _ .start hpath rfl) hkilled
    (cons hdir (cons trivial .nil))
  exact ⟨_, hrun, journal_lines_survive (exampleDisk_coherent _) hrun (List.cons_ne_nil _ _)⟩

end Examples

end BonsaiChain
