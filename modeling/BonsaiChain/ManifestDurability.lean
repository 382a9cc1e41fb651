import BonsaiChain.Lib.Runs
import BonsaiChain.ManifestRegistry

/-!
# What the install log promises

A run calls a registry on an empty log, and each append goes its own way. The operations that
returned `BNS_OK` say which record every id has, and a new registry on the log is to agree with
them.
-/

namespace BonsaiChain

open Lib

inductive ManifestCall where
  | install (now : Int64) (args : ManifestInstallArgs)
  | uninstall (id : Option CStr)

namespace ManifestRegistry

def call (reg : ManifestRegistry) (io : AppendIo) :
    ManifestCall → Except Err Unit × ManifestRegistry
  | .install now args => ((reg.install io now args).1.map fun _ => (), (reg.install io now args).2)
  | .uninstall id => reg.uninstall io id

/-- The line a call appends, if it is not refused before. -/
def appends (reg : ManifestRegistry) : ManifestCall → Option Bytes
  | .install now args =>
    if (findIdx reg.entries args.extensionId).isSome then none
    else (fullRecord args now).bind buildInstallLine
  | .uninstall id => if (findIdx reg.entries id).isSome then id.bind buildUninstallLine else none

end ManifestRegistry

/-- A registry and the calls it has answered. -/
structure ManifestRun where
  reg : ManifestRegistry
  history : List (ManifestCall × Except Err Unit)

namespace ManifestRun

/-- A new registry without a log file. -/
def start : ManifestRun := ⟨⟨[], []⟩, []⟩

def step (r : ManifestRun) (e : ManifestCall × AppendIo) : ManifestRun :=
  ⟨(r.reg.call e.2 e.1).2, r.history ++ [(e.1, (r.reg.call e.2 e.1).1)]⟩

end ManifestRun

/-- What an operation makes of the record of `id`: only those that returned `BNS_OK` count. -/
def settle (id : CStr) (kept : Option ManifestRecord) :
    ManifestCall × Except Err Unit → Option ManifestRecord
  | (.install now args, .ok ()) =>
    match ManifestRegistry.fullRecord args now with
    | some r => if r.extensionId = id then some r else kept
    | none => kept
  | (.uninstall gone, .ok ()) => if gone = some id then none else kept
  | (_, .error _) => kept

/-- The record `id` has by the operations that returned `BNS_OK`. -/
def settled (history : List (ManifestCall × Except Err Unit)) (id : CStr) : Option ManifestRecord :=
  history.foldl (settle id) none

/-- A new registry on the log has the record of every id that the operations that returned `BNS_OK`
gave it, and no other. -/
def ManifestRun.Durable (r : ManifestRun) : Prop :=
  ∃ reg, manifestRegistryNew r.reg.log = .ok reg ∧
    ∀ id, ManifestRegistry.get reg.entries (some id) = settled r.history id

section Safe

/-- The log is empty or ends with a newline. -/
def Terminated (log : Bytes) : Prop := ∀ b ∈ log.getLast?, b = 10

/-- The replay keeps the fields: it takes an empty optional field for an absent one, and the install
time goes through a `double`. -/
structure ManifestRecord.Replayable (r : ManifestRecord) : Prop where
  signerPubkey : ∀ s ∈ r.signerPubkey, s.val ≠ []
  publishRef : ∀ s ∈ r.publishRef, s.val ≠ []
  installedAt : int64OfDouble (.ofRat r.installedAt.toInt) = r.installedAt

def ManifestCall.Replayable : ManifestCall → Prop
  | .install now args => ∀ r ∈ ManifestRegistry.fullRecord args now, r.Replayable
  | .uninstall _ => True

/-- A line that can be replayed is appended to a terminated log, or the append fails with less than
the line written or behind a torn line. -/
def AppendIo.Safe (io : AppendIo) (log : Bytes) (c : ManifestCall) (line : Bytes) : Prop :=
  match io with
  | .ok => Terminated log ∧ c.Replayable
  | .torn written => Terminated log → written < line.length
  | .unsynced => ¬Terminated log

/-- A call is refused or its append is safe. -/
def AppendSafe (reg : ManifestRegistry) (e : ManifestCall × AppendIo) : Prop :=
  ∀ line ∈ reg.appends e.1, e.2.Safe reg.log e.1 line

end Safe

section Reopen

/-- An install gives its optional fields or leaves them out, and its install time is a number that a
`double` holds. -/
def ManifestCall.WellFormed : ManifestCall → Prop
  | .install now args =>
    (∀ s ∈ args.signerPubkey, s.val ≠ []) ∧ (∀ s ∈ args.publishRef, s.val ≠ [])
      ∧ |(args.installedAt.getD now).toInt| ≤ 2 ^ 53
  | .uninstall _ => True

/-- The registry after the calls when every append succeeds. -/
def ManifestRun.persisted (calls : List ManifestCall) : ManifestRun :=
  run ManifestRun.step ManifestRun.start (calls.map (·, AppendIo.ok))

end Reopen

end BonsaiChain
