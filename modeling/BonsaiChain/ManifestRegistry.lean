import BonsaiChain.CJson

/-!
# The manifest registry

The append-only install log behind the store of verified release manifests: an operation appends its
line to the log before it changes the store, and a new registry replays the log. The registry has a
log path. An append that fails leaves a part of its line in the file, or all of it.
-/

namespace BonsaiChain

open Lib CJson

structure ManifestRecord where
  extensionId : CStr
  version : CStr
  source : CStr
  manifestJson : CStr
  signerPubkey : Option CStr
  publishRef : Option CStr
  installedAt : Int64
  deriving DecidableEq

/-- `manifest_install_args_t`. `none` is a null pointer, or no `installed_at`. -/
structure ManifestInstallArgs where
  extensionId : Option CStr
  version : Option CStr
  source : Option CStr
  manifestJson : Option CStr
  signerPubkey : Option CStr
  publishRef : Option CStr
  installedAt : Option Int64

/-- The store in insertion order, and the bytes of the log file. A file that does not exist is
empty. -/
structure ManifestRegistry where
  entries : List ManifestRecord
  log : Bytes

section Store

variable (entries : List ManifestRecord)

def findIdx (id : Option CStr) : Option ℕ :=
  id.bind fun id => entries.findIdx? fun r => r.extensionId = id

def storePush (r : ManifestRecord) : List ManifestRecord := entries ++ [r]

def storeDeleteIdx (idx : ℕ) : List ManifestRecord := entries.eraseIdx idx

end Store

section Lines

/-- A string constant of the source. -/
def literal (s : String) : CStr := cStr (ascii s)

def optionalMember (name : String) (value : Option CStr) : List (CStr × Json) :=
  match value with
  | none => []
  | some s => [(literal name, .string s)]

def installObject (r : ManifestRecord) : Json :=
  .object <|
    [(literal "op", .string (literal "install")),
      (literal "extensionId", .string r.extensionId),
      (literal "version", .string r.version),
      (literal "source", .string r.source)] ++
    optionalMember "signerPubkey" r.signerPubkey ++
    optionalMember "publishRef" r.publishRef ++
    [(literal "installedAt", .raw (cStr (decimalInt r.installedAt.toInt))),
      (literal "manifest", .string r.manifestJson)]

def buildInstallLine (r : ManifestRecord) : Option Bytes := printUnformatted (installObject r)

def uninstallObject (id : CStr) : Json :=
  .object [(literal "op", .string (literal "uninstall")), (literal "extensionId", .string id)]

def buildUninstallLine (id : CStr) : Option Bytes := printUnformatted (uninstallObject id)

end Lines

section Persist

/-- How an append goes. -/
inductive AppendIo where
  /-- The line is written and synced. -/
  | ok
  /-- `written` bytes, less than all of them, are in the file when a step fails. -/
  | torn (written : ℕ)
  /-- All bytes are in the file when `fsync` or `close` fails. -/
  | unsynced

/-- Appends the line and a newline: the result and the log. -/
def persistLine (io : AppendIo) (line log : Bytes) : Except Err Unit × Bytes :=
  match io with
  | .ok => (.ok (), log ++ line ++ [10])
  | .torn written => (.error .epersist, log ++ line.take written)
  | .unsynced => (.error .epersist, log ++ line ++ [10])

end Persist

section Replay

def stringItem (name : String) (rec : Json) : Option CStr :=
  (getObjectItem (ascii name) rec).bind stringValue

/-- An empty string counts as none. -/
def nonEmptyItem (name : String) (rec : Json) : Option CStr :=
  (stringItem name rec).filter fun s => s.val ≠ []

def replayManifest (rec : Json) : Except Err CStr :=
  match getObjectItem (ascii "manifest") rec with
  | some (.string s) => .ok s
  | some man => ((printUnformatted man).elim (.error .enomem) fun text => .ok (cStr text))
  | none => .ok (literal "")

def replayInstalledAt (rec : Json) : Int64 :=
  match getObjectItem (ascii "installedAt") rec with
  | some (.number d) => int64OfDouble d
  | _ => 0

def applyInstall (entries : List ManifestRecord) (rec : Json) :
    Except Err (List ManifestRecord) := do
  match stringItem "extensionId" rec with
  | none => return entries
  | some id =>
    if (findIdx entries (some id)).isSome then return entries
    let manifestJson ← replayManifest rec
    return storePush entries
      { extensionId := id
        version := (stringItem "version" rec).getD (literal "")
        source := (stringItem "source" rec).getD (literal "")
        manifestJson
        signerPubkey := nonEmptyItem "signerPubkey" rec
        publishRef := nonEmptyItem "publishRef" rec
        installedAt := replayInstalledAt rec }

def applyUninstall (entries : List ManifestRecord) (rec : Json) : List ManifestRecord :=
  match findIdx entries (stringItem "extensionId" rec) with
  | some idx => storeDeleteIdx entries idx
  | none => entries

def applyLogLine (entries : List ManifestRecord) (line : Bytes) :
    Except Err (List ManifestRecord) :=
  match parse line with
  | none => .ok entries
  | some rec =>
    match stringItem "op" rec with
    | none => .ok entries
    | some op =>
      if op = literal "install" then applyInstall entries rec
      else if op = literal "uninstall" then .ok (applyUninstall entries rec)
      else .ok entries

/-- The lines of the log that are not empty. The file is read up to its first NUL, and what follows
the last newline is a line too. -/
def logLines (log : Bytes) : List Bytes :=
  ((log.takeWhile (· ≠ 0)).splitOn 10).filter (· ≠ [])

def replay (log : Bytes) : Except Err (List ManifestRecord) := (logLines log).foldlM applyLogLine []

end Replay

/-- A registry on an existing log. -/
def manifestRegistryNew (log : Bytes) : Except Err ManifestRegistry := do
  let entries ← replay log
  return { entries, log }

namespace ManifestRegistry

/-- The record the registry keeps, when no required string is a null pointer. -/
def fullRecord (args : ManifestInstallArgs) (now : Int64) : Option ManifestRecord := do
  let extensionId ← args.extensionId
  let version ← args.version
  let source ← args.source
  let manifestJson ← args.manifestJson
  some
    { extensionId, version, source, manifestJson
      signerPubkey := args.signerPubkey
      publishRef := args.publishRef
      installedAt := args.installedAt.getD now }

/-- Installs at the time `now`, with the append going as `io`. -/
def install (reg : ManifestRegistry) (io : AppendIo) (now : Int64) (args : ManifestInstallArgs) :
    Except Err ManifestRecord × ManifestRegistry :=
  if (findIdx reg.entries args.extensionId).isSome then (.error .einval, reg)
  else
    -- `cJSON_CreateString(NULL)` fails, so a null pointer leaves no line
    match (fullRecord args now).bind fun r => (buildInstallLine r).map (r, ·) with
    | none => (.error .enomem, reg)
    | some (full, line) =>
      match persistLine io line reg.log with
      | (.error e, log) => (.error e, { reg with log })
      | (.ok (), log) => (.ok full, { entries := storePush reg.entries full, log })

def uninstall (reg : ManifestRegistry) (io : AppendIo) (id : Option CStr) :
    Except Err Unit × ManifestRegistry :=
  match findIdx reg.entries id with
  | none => (.error .enotfound, reg)
  | some idx =>
    match id.bind buildUninstallLine with
    | none => (.error .enomem, reg)
    | some line =>
      match persistLine io line reg.log with
      | (.error e, log) => (.error e, { reg with log })
      | (.ok (), log) => (.ok (), { entries := storeDeleteIdx reg.entries idx, log })

def get (entries : List ManifestRecord) (id : Option CStr) : Option ManifestRecord :=
  (findIdx entries id).bind (entries[·]?)

end ManifestRegistry

end BonsaiChain
