import BonsaiChain.Common
import BonsaiChain.Lib.CrashDisk
import BonsaiChain.Lib.Traced

/-!
# Crash-durable files

`scripts/agentd_persistence.c`: the state file is replaced through a temporary file, the journal of
accepted broadcasts grows a line at a time. A call takes the answers of the system and leaves what
it did to the disk, call by call; where it is killed or the power goes, it has done the first few of
these. Paths that are spelt differently are different files.
-/

namespace BonsaiChain

open Lib Traced

/-- Files have their numbers. -/
abbrev PathEffect := DiskEffect CString CString ℕ UInt8

abbrev PathDisk := Disk CString ℕ UInt8

/-- What `write` answers: `EINTR`, another error, or so many bytes. -/
inductive WriteAnswer where
  | interrupted
  | failed
  | wrote (n : ℕ)
  deriving DecidableEq, Repr

/-- A call that answers 0. -/
def sysCall (ok : Bool) : Except Err Unit := if ok then .ok () else .error .epersist

/-- A call that does `e` if it answers 0. -/
def perform (ok : Bool) (e : PathEffect) : Traced PathEffect (Except Err Unit) :=
  if ok then do
    emit e
    return .ok ()
  else pure (.error .epersist)

/-- `if (rc == BNS_OK) rc = ..`. -/
def whenOk (rc : Except Err Unit) (next : Traced PathEffect (Except Err Unit)) :
    Traced PathEffect (Except Err Unit) :=
  match rc with
  | .ok () => next
  | .error e => pure (.error e)

/-- The loop of `write_all`; where the answers end, it has not returned. -/
def writeAll (ino : ℕ) : Bytes → List WriteAnswer → Traced PathEffect (Except Err Unit)
  | [], _ => pure (.ok ())
  | _ :: _, [] => ⟨[], none⟩
  | b :: data, .interrupted :: answers => writeAll ino (b :: data) answers
  | _ :: _, .failed :: _ | _ :: _, .wrote 0 :: _ => pure (.error .epersist)
  | b :: data, .wrote (n + 1) :: answers => do
    emit (.append ino ((b :: data).take (n + 1)))
    writeAll ino ((b :: data).drop (n + 1)) answers

def asciiAlnum (c : UInt8) : Bool :=
  (48 ≤ c ∧ c ≤ 57) ∨ (65 ≤ c ∧ c ≤ 90) ∨ (97 ≤ c ∧ c ≤ 122)

def asciiHex (c : UInt8) : Bool :=
  (48 ≤ c ∧ c ≤ 57) ∨ (65 ≤ c ∧ c ≤ 70) ∨ (97 ≤ c ∧ c ≤ 102)

section ParentDir

/-- The directory of a path: what is before its last slash. -/
def parentDir (path : CString) : CString :=
  match path.reverse.dropWhile (· ≠ 47) with
  | [] => ascii "."
  | [_] => ascii "/"
  | _ :: dir => dir.reverse

structure DirAnswers where
  opens : Bool
  fsync : Bool
  close : Bool

def fsyncParentDir (path : CString) (os : DirAnswers) : Traced PathEffect (Except Err Unit) :=
  if path = [] then pure (.error .einval)
  else if !os.opens then pure (.error .epersist)
  else do
    let rc ← perform os.fsync (.syncDir (parentDir path))
    return rc.bind fun _ => sysCall os.close

end ParentDir

section WriteFile

/-- `mkstemp` answers with the six characters of the name and the new file. -/
structure AtomicAnswers where
  mkstemp : Option (Block 6 × ℕ)
  fchmod : Bool
  writes : List WriteAnswer
  fsync : Bool
  close : Bool
  rename : Bool
  unlink : Bool
  dir : DirAnswers

def tmpPath (path : CString) (suffix : Block 6) : CString := path ++ ascii ".tmp." ++ suffix.1

/-- The answer of `unlink` is not looked at. -/
def unlinkTmp (tmp : CString) (os : AtomicAnswers) (e : Err) :
    Traced PathEffect (Except Err Unit) := do
  let _ ← perform os.unlink (.unlink tmp)
  return .error e

def agentdWriteFileAtomic (path text : CString) (os : AtomicAnswers) :
    Traced PathEffect (Except Err Unit) :=
  if path = [] then pure (.error .einval)
  else
    match os.mkstemp with
    | none => pure (.error .epersist)
    | some (suffix, ino) => do
      let tmp := tmpPath path suffix
      emit (.create tmp ino)
      let rc ← whenOk (sysCall os.fchmod) (writeAll ino text os.writes)
      let rc ← whenOk rc (perform os.fsync (.sync ino))
      -- the file is closed in any case
      match rc.bind fun _ => sysCall os.close with
      | .error e => unlinkTmp tmp os e
      | .ok () =>
        let rc ← perform os.rename (.rename tmp path)
        match rc with
        | .error e => unlinkTmp tmp os e
        | .ok () => fsyncParentDir path os.dir

end WriteFile

section Journal

/-- `open` answers with the file and whether it is new. -/
structure JournalAnswers where
  opens : Option (ℕ × Bool)
  regular : Bool
  fchmod : Bool
  flock : Bool
  writes : List WriteAnswer
  fsync : Bool
  close : Bool
  dir : DirAnswers

/-- `AGENTD_BROADCAST_JOURNAL`, or a file beside the state file. -/
def journalPath (stateFile : CString) (override : Option CString) : CString :=
  match override with
  | some path => if path = [] then stateFile ++ ascii ".broadcasts" else path
  | none => stateFile ++ ascii ".broadcasts"

def journalLine (tag txid : CString) : CString := tag ++ [32] ++ txid ++ [10]

/-- From `open` to `close`. -/
def appendLine (path line : CString) (os : JournalAnswers) :
    Traced PathEffect (Except Err Unit) :=
  match os.opens with
  | none => pure (.error .epersist)
  | some (ino, created) => do
    emit (if created then .create path ino else .opened path ino)
    let locked : Except Err Unit := do
      sysCall os.regular
      sysCall os.fchmod
      sysCall os.flock
    let rc ← whenOk locked (writeAll ino line os.writes)
    let rc ← whenOk rc (perform os.fsync (.sync ino))
    return rc.bind fun _ => sysCall os.close

def writeJournal (path line : CString) (os : JournalAnswers) :
    Traced PathEffect (Except Err Unit) := do
  let rc ← appendLine path line os
  whenOk rc (fsyncParentDir path os.dir)

def agentdJournalBroadcast (stateFile tag txid : CString) (override : Option CString)
    (os : JournalAnswers) : Traced PathEffect (Except Err Unit) :=
  if stateFile = [] ∨ tag = [] ∨ txid = [] then pure (.error .einval)
  else if !tag.all fun c => asciiAlnum c || c == 46 || c == 95 || c == 45 then
    pure (.error .einval)
  else if txid.length ≠ 64 then pure (.error .einval)
  else if !txid.all asciiHex then pure (.error .einval)
  else writeJournal (journalPath stateFile override) (journalLine tag txid) os

/-- What may happen to the disk while broadcasts are journaled, one at a time: calls that are
killed or fail, calls that succeed, with their lines, anything that does not rename or unlink the
journal, and power cuts. -/
inductive JournalRun (stateFile : CString) (override : Option CString) (d : PathDisk) :
    List CString → PathDisk → Prop
  | start : JournalRun stateFile override d [] d
  | stopped {lines : List CString} {d₁ d₂ : PathDisk} {es : List PathEffect} (tag txid : CString)
      (os : JournalAnswers) (h : JournalRun stateFile override d lines d₁)
      (hes : es <+: (agentdJournalBroadcast stateFile tag txid override os).effects)
      (hdisk : Path (Disk.Step parentDir) d₁ es d₂) : JournalRun stateFile override d lines d₂
  | recorded {lines : List CString} {d₁ d₂ : PathDisk} (tag txid : CString) (os : JournalAnswers)
      (h : JournalRun stateFile override d lines d₁)
      (hdisk : Path (Disk.Step parentDir) d₁
        (agentdJournalBroadcast stateFile tag txid override os).effects d₂)
      (hok : (agentdJournalBroadcast stateFile tag txid override os).result = some (.ok ())) :
    JournalRun stateFile override d (lines ++ [journalLine tag txid]) d₂
  | other {lines : List CString} {d₁ : PathDisk} (e : PathEffect)
      (h : JournalRun stateFile override d lines d₁) (hallows : d₁.Allows e)
      (hfree : ¬e.Binds (journalPath stateFile override)) :
    JournalRun stateFile override d lines (d₁.apply parentDir e)
  | cut {lines : List CString} {d₁ d₂ : PathDisk} (h : JournalRun stateFile override d lines d₁)
      (hcut : d₁.Cut d₂) : JournalRun stateFile override d lines d₂

end Journal

end BonsaiChain
