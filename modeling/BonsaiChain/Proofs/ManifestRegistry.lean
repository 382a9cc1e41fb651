import BonsaiChain.Lib.Results
import BonsaiChain.ManifestDurability
import BonsaiChain.Proofs.CJson

/-!
# Replaying the install log

A line the registry writes replays as the operation that wrote it, and a line that breaks off and
runs on into later ones is skipped. So the log stays true to the operations that returned `BNS_OK`
exactly when no line is appended behind a torn one and no failed append leaves its whole line.
-/

namespace BonsaiChain

open Lib CJson ManifestRegistry

section Store

variable {entries : List ManifestRecord} {id : CStr} {r : ManifestRecord} {idx : ℕ}

/-- The ids of the store are pairwise distinct. -/
def DistinctIds (entries : List ManifestRecord) : Prop := (entries.map (·.extensionId)).Nodup

theorem get_eq_find : get entries (some id) = entries.find? fun r => r.extensionId = id := by
  show (entries.findIdx? _).bind _ = _
  rw [List.find?_eq_bind_findIdx?_getElem?]

theorem get_eq_none : get entries (some id) = none ↔ findIdx entries (some id) = none := by
  rw [get_eq_find]
  show _ ↔ entries.findIdx? _ = none
  rw [List.find?_eq_none, List.findIdx?_eq_none_iff]
  simp

theorem get_storePush (h : findIdx entries (some r.extensionId) = none) :
    get (storePush entries r) (some id)
      = if r.extensionId = id then some r else get entries (some id) := by
  have hnone := get_eq_none.mpr h
  rw [get_eq_find] at hnone
  rw [get_eq_find, get_eq_find, storePush, List.find?_append]
  split_ifs with hid
  · rw [← hid, hnone]
    simp
  · simp [hid]

theorem DistinctIds.storePush (hd : DistinctIds entries)
    (h : findIdx entries (some r.extensionId) = none) : DistinctIds (storePush entries r) := by
  have hnot : r.extensionId ∉ entries.map (·.extensionId) := by
    rw [← get_eq_none, get_eq_find, List.find?_eq_none] at h
    intro hmem
    obtain ⟨r', hr', heq⟩ := List.mem_map.mp hmem
    exact h r' hr' (by simpa using heq)
  unfold DistinctIds BonsaiChain.storePush
  rw [List.map_append, List.map_singleton]
  refine List.nodup_append.mpr ⟨hd, by simp, fun id hid id' hid' => ?_⟩
  obtain rfl := List.mem_singleton.mp hid'
  rintro rfl
  exact hnot hid

/-- The entry that is deleted and those around it. -/
theorem findIdx_split (h : findIdx entries (some id) = some idx) :
    ∃ l₁ r l₂, entries = l₁ ++ r :: l₂ ∧ r.extensionId = id
      ∧ storeDeleteIdx entries idx = l₁ ++ l₂ := by
  obtain ⟨hlt, hid, -⟩ := List.findIdx?_eq_some_iff_getElem.mp h
  refine ⟨entries.take idx, entries[idx], entries.drop (idx + 1), ?_, by simpa using hid,
    List.eraseIdx_eq_take_drop_succ ..⟩
  rw [← List.drop_eq_getElem_cons hlt, List.take_append_drop]

theorem get_storeDeleteIdx (hd : DistinctIds entries) {gone : CStr}
    (h : findIdx entries (some gone) = some idx) :
    get (storeDeleteIdx entries idx) (some id)
      = if gone = id then none else get entries (some id) := by
  obtain ⟨l₁, r, l₂, rfl, rfl, hdel⟩ := findIdx_split h
  unfold DistinctIds at hd
  rw [List.map_append, List.map_cons, List.nodup_append, List.nodup_cons] at hd
  obtain ⟨-, ⟨hl₂, -⟩, hl₁⟩ := hd
  rw [hdel, get_eq_find, get_eq_find]
  split_ifs with hid
  · rw [List.find?_eq_none]
    intro x hx
    rw [decide_eq_true_eq, ← hid]
    rcases List.mem_append.mp hx with hx | hx
    · exact hl₁ _ (List.mem_map_of_mem hx) _ (List.mem_cons_self ..)
    · rintro heq
      exact hl₂ (heq ▸ List.mem_map_of_mem hx)
  · simp [List.find?_append, hid]

theorem DistinctIds.storeDeleteIdx (hd : DistinctIds entries) : 
    DistinctIds (storeDeleteIdx entries idx) :=
  hd.sublist ((List.eraseIdx_sublist ..).map _)

end Store

section Lines

/-- The first member of every line. -/
def opMember (op : String) : Member := .string (literal "op") (literal op)

def optionalMembers (name : String) (value : Option CStr) : List Member :=
  (value.map (Member.string (literal name))).toList

def installMembers (r : ManifestRecord) : List Member :=
  [.string (literal "extensionId") r.extensionId, .string (literal "version") r.version,
    .string (literal "source") r.source] ++
  optionalMembers "signerPubkey" r.signerPubkey ++ optionalMembers "publishRef" r.publishRef ++
  [.int (literal "installedAt") r.installedAt.toInt, .string (literal "manifest") r.manifestJson]

def uninstallMembers (id : CStr) : List Member := [.string (literal "extensionId") id]

theorem buildInstallLine_eq (r : ManifestRecord) :
    buildInstallLine r = some (objectText (opMember "install") (installMembers r)) := by
  have h : installObject r
      = .object ((opMember "install" :: installMembers r).map fun m => (m.name, m.item)) := by
    rcases r with ⟨_, _, _, _, signerPubkey, publishRef, _⟩
    cases signerPubkey <;> cases publishRef <;> rfl
  rw [buildInstallLine, h]
  exact printValue_object

theorem buildUninstallLine_eq (id : CStr) :
    buildUninstallLine id = some (objectText (opMember "uninstall") (uninstallMembers id)) := by
  have h : uninstallObject id
      = .object ((opMember "uninstall" :: uninstallMembers id).map fun m => (m.name, m.item)) := rfl
  rw [buildUninstallLine, h]
  exact printValue_object

theorem parse_of_brace {Y : Bytes} :
    parse (123 :: Y) = (parseValue nestingLimit (123 :: Y ++ [0])).map (·.1) := by
  have hbom : skipUtf8Bom (123 :: Y ++ [0]) = 123 :: Y ++ [0] := by
    unfold skipUtf8Bom
    rw [if_neg]
    rintro ⟨-, h⟩
    simp [List.isPrefixOf] at h
  rw [parse, hbom, List.cons_append, skipWhitespace_cons (by decide)]

theorem parse_objectText {m : Member} {ms : List Member} :
    parse (objectText m ms) = some (.object ((m :: ms).map fun m => (m.name, m.value))) := by
  rw [objectText, parse_of_brace]
  show (parseValue (999 + 1) (objectText m ms ++ [0])).map _ = _
  rw [parseValue_objectText]
  rfl

/-- What the replay makes of an installed record. -/
def ManifestRecord.reread (r : ManifestRecord) : ManifestRecord :=
  { r with
    signerPubkey := r.signerPubkey.filter fun s => s.val ≠ []
    publishRef := r.publishRef.filter fun s => s.val ≠ []
    installedAt := int64OfDouble (.ofRat r.installedAt.toInt) }

theorem filter_eq_self {value : Option CStr} :
    (value.filter fun s => s.val ≠ []) = value ↔ ∀ s ∈ value, s.val ≠ [] := by
  cases value with
  | none => simp
  | some s => simp [Option.filter]

theorem ManifestRecord.reread_eq_self {r : ManifestRecord} : r.reread = r ↔ r.Replayable := by
  rcases r with ⟨_, _, _, _, signerPubkey, publishRef, installedAt⟩
  simp only [reread, mk.injEq, true_and]
  rw [filter_eq_self, filter_eq_self]
  exact ⟨fun ⟨h₁, h₂, h₃⟩ => ⟨h₁, h₂, h₃⟩, fun ⟨h₁, h₂, h₃⟩ => ⟨h₁, h₂, h₃⟩⟩

/-- The object an install line is read back as. -/
def readInstall (r : ManifestRecord) : Json :=
  .object ((opMember "install" :: installMembers r).map fun m => (m.name, m.value))

theorem required_readInstall (r : ManifestRecord) :
    stringItem "extensionId" (readInstall r) = some r.extensionId ∧
      stringItem "version" (readInstall r) = some r.version ∧
      stringItem "source" (readInstall r) = some r.source := ⟨rfl, rfl, rfl⟩

/-- The lookups behind the optional members. -/
theorem optional_readInstall (r : ManifestRecord) :
    stringItem "signerPubkey" (readInstall r) = r.signerPubkey ∧
      stringItem "publishRef" (readInstall r) = r.publishRef ∧
      replayManifest (readInstall r) = .ok r.manifestJson ∧
      replayInstalledAt (readInstall r) = int64OfDouble (.ofRat r.installedAt.toInt) := by
  rcases r with ⟨_, _, _, _, signerPubkey, publishRef, _⟩
  cases signerPubkey <;> cases publishRef <;> exact ⟨rfl, rfl, rfl, rfl⟩

theorem applyLogLine_install (entries : List ManifestRecord) (r : ManifestRecord) :
    applyLogLine entries (objectText (opMember "install") (installMembers r))
      = .ok (if (findIdx entries (some r.extensionId)).isSome then entries
          else storePush entries r.reread) := by
  obtain ⟨hid, hversion, hsource⟩ := required_readInstall r
  obtain ⟨hsigner, hpublish, hmanifest, hinstalled⟩ := optional_readInstall r
  rw [applyLogLine, parse_objectText]
  show applyInstall entries (readInstall r) = _
  simp only [applyInstall, hid, hversion, hsource, hmanifest, hinstalled, nonEmptyItem, hsigner,
    hpublish]
  split_ifs <;> rfl

theorem applyLogLine_uninstall (entries : List ManifestRecord) (id : CStr) :
    applyLogLine entries (objectText (opMember "uninstall") (uninstallMembers id))
      = .ok (match findIdx entries (some id) with
          | some idx => storeDeleteIdx entries idx
          | none => entries) := by
  rw [applyLogLine, parse_objectText]
  rfl

end Lines

section Torn

/-- A line the registry writes, or a part of one from its start. -/
def Piece (T : Bytes) : Prop := ∃ op ms, T <+: objectText (opMember op) ms

/-- What appends behind a torn line leave. -/
def Scraps (R : Bytes) : Prop := ∃ Ts : List Bytes, (∀ T ∈ Ts, Piece T) ∧ R = Ts.flatten

/-- A line that breaks off, with what later appends left behind it. -/
def TornLine (t : Bytes) : Prop :=
  ∃ op ms T R, T <+: objectText (opMember op) ms ∧ T ≠ objectText (opMember op) ms ∧ T ≠ [] ∧
    Scraps R ∧ t = T ++ R

variable {T R t line : Bytes}

theorem Piece.visible (h : Piece T) : ∀ c ∈ T, 31 < c := by
  obtain ⟨op, ms, hT⟩ := h
  exact fun c hc => objectText_visible c (hT.subset hc)

theorem Piece.take (h : Piece T) (n : ℕ) : Piece (T.take n) := by
  obtain ⟨op, ms, hT⟩ := h
  exact ⟨op, ms, (List.take_prefix ..).trans hT⟩

theorem scraps_nil : Scraps [] := ⟨[], by simp, rfl⟩

theorem Scraps.append (hR : Scraps R) (hT : Piece T) : Scraps (R ++ T) := by
  obtain ⟨Ts, hTs, rfl⟩ := hR
  refine ⟨Ts ++ [T], ?_, by simp⟩
  simpa [or_imp, forall_and] using ⟨hTs, hT⟩

theorem Scraps.visible (hR : Scraps R) : ∀ c ∈ R, 31 < c := by
  obtain ⟨Ts, hTs, rfl⟩ := hR
  intro c hc
  obtain ⟨T, hT, hc⟩ := List.mem_flatten.mp hc
  exact (hTs T hT).visible c hc

theorem Scraps.severs (hR : Scraps R) : Severs (R ++ [0]) := by
  obtain ⟨Ts, hTs, rfl⟩ := hR
  induction Ts with
  | nil => exact severs_nul
  | cons T Ts ih =>
    rw [List.forall_mem_cons] at hTs
    have hrest := ih hTs.2
    obtain ⟨op, ms, hT⟩ := hTs.1
    rw [List.flatten_cons, List.append_assoc]
    by_cases hnil : T = []
    · rw [hnil]
      exact hrest
    · exact hrest.append hT hnil (c := 111) (Y := [112, 34]) rfl (by decide) (by decide)

/-- The replay skips a torn line, whatever runs on into it. -/
theorem TornLine.parse_eq_none (h : TornLine t) : parse t = none := by
  obtain ⟨op, ms, T, R, hT, hne, hnil, hR, rfl⟩ := h
  have htorn : parseValue nestingLimit (T ++ (R ++ [0])) = none :=
    parseValue_torn hR.severs hT hne hnil
  obtain ⟨c, T, rfl⟩ := List.exists_cons_of_ne_nil hnil
  obtain ⟨rfl, -⟩ := List.cons_prefix_cons.mp hT
  rw [← List.append_assoc] at htorn
  rw [List.cons_append, parse_of_brace]
  show (parseValue nestingLimit (123 :: T ++ R ++ [0])).map _ = none
  rw [htorn]
  rfl

theorem TornLine.append (h : TornLine t) (hT : Piece T) : TornLine (t ++ T) := by
  obtain ⟨op, ms, U, R, hU, hne, hnil, hR, rfl⟩ := h
  exact ⟨op, ms, U, R ++ T, hU, hne, hnil, hR.append hT, List.append_assoc ..⟩

theorem TornLine.visible (h : TornLine t) : ∀ c ∈ t, 31 < c := by
  obtain ⟨op, ms, T, R, hT, -, -, hR, rfl⟩ := h
  intro c hc
  rcases List.mem_append.mp hc with hc | hc
  · exact objectText_visible c (hT.subset hc)
  · exact hR.visible c hc

theorem TornLine.ne_nil (h : TornLine t) : t ≠ [] := by
  obtain ⟨op, ms, T, R, -, -, hnil, -, rfl⟩ := h
  simp [hnil]

end Torn

section Log

variable {done t : Bytes} {entries : List ManifestRecord}

theorem takeWhile_of_no_nul (h : 0 ∉ done) : done.takeWhile (· ≠ 0) = done :=
  List.takeWhile_eq_self_iff.mpr fun c hc => by simpa using fun h0 : c = 0 => h (h0 ▸ hc)

theorem not_mem_of_visible {b : UInt8} (ht : ∀ c ∈ t, 31 < c) (hb : ¬31 < b) : b ∉ t :=
  fun h => hb (ht b h)

theorem logLines_newline (h : 0 ∉ done) (t : Bytes) (ht : 0 ∉ t) :
    logLines (done ++ 10 :: t) = logLines done ++ logLines t := by
  have hall : 0 ∉ done ++ 10 :: t := by simp [h, ht]
  unfold logLines
  rw [takeWhile_of_no_nul hall, takeWhile_of_no_nul h, takeWhile_of_no_nul ht,
    List.splitOn_append_cons_self, List.filter_append]

theorem logLines_line (ht : ∀ c ∈ t, 31 < c) (hnil : t ≠ []) : logLines t = [t] := by
  unfold logLines
  rw [takeWhile_of_no_nul (not_mem_of_visible ht (by decide)),
    List.splitOn_eq_singleton (not_mem_of_visible ht (by decide))]
  simp [hnil]

/-- What is appended to a terminated log is a line of its own. -/
theorem logLines_append (hd : Terminated done) (h0 : 0 ∉ done) (ht : ∀ c ∈ t, 31 < c)
    (hnil : t ≠ []) : logLines (done ++ t) = logLines done ++ [t] := by
  have ht0 : 0 ∉ t := not_mem_of_visible ht (by decide)
  rcases List.eq_nil_or_concat done with rfl | ⟨d, b, rfl⟩
  · exact logLines_line ht hnil
  · rw [List.concat_eq_append] at *
    obtain rfl : b = 10 := hd b (by simp)
    have hd0 : 0 ∉ d := fun h => h0 (by simp [h])
    rw [List.append_assoc, List.singleton_append, logLines_newline hd0 t ht0,
      logLines_newline hd0 [] (by simp), logLines_line ht hnil]
    simp [logLines]

theorem replay_append (hd : Terminated done) (h0 : 0 ∉ done) (ht : ∀ c ∈ t, 31 < c)
    (hnil : t ≠ []) (hreplay : replay done = .ok entries) :
    replay (done ++ t) = applyLogLine entries t := by
  unfold replay at hreplay ⊢
  rw [logLines_append hd h0 ht hnil, List.foldlM_append, hreplay]
  exact bind_pure (applyLogLine entries t)

theorem replay_newline (h0 : 0 ∉ done) : replay (done ++ [10]) = replay done := by
  unfold replay
  rw [logLines_newline h0 [] (by simp)]
  simp [logLines]

end Log

section Appends

/-- A call that is not refused: the line it appends, the store it goes on with and the one the line
replays to. -/
structure Appends (entries : List ManifestRecord) (c : ManifestCall) (line : Bytes)
    (kept reread : List ManifestRecord) : Prop where
  isLine : ∃ op ms, line = objectText (opMember op) ms
  replays : applyLogLine entries line = .ok reread
  distinct : DistinctIds entries → DistinctIds kept
  keeps : DistinctIds entries → ∀ id,
    get kept (some id) = settle id (get entries (some id)) (c, .ok ())
  same : c.Replayable → reread = kept
  changes : DistinctIds entries → ∃ id, get entries (some id) ≠ get kept (some id) ∧
    get entries (some id) ≠ get reread (some id) ∧
    (get reread (some id) = get kept (some id) → c.Replayable)

variable {entries : List ManifestRecord}

theorem appends_install {now : Int64} {args : ManifestInstallArgs} {r : ManifestRecord}
    (hfull : fullRecord args now = some r) (hnew : findIdx entries (some r.extensionId) = none) :
    Appends entries (.install now args) (objectText (opMember "install") (installMembers r))
      (storePush entries r) (storePush entries r.reread) where
  isLine := ⟨_, _, rfl⟩
  replays := by
    rw [applyLogLine_install, hnew]
    rfl
  distinct hd := hd.storePush hnew
  keeps hd id := by
    rw [get_storePush hnew]
    simp [settle, hfull]
  same h := by
    rw [ManifestRecord.reread_eq_self.mpr (h r hfull)]
  changes hd := by
    have hkept : get (storePush entries r) (some r.extensionId) = some r := by
      rw [get_storePush hnew, if_pos rfl]
    have hreread : get (storePush entries r.reread) (some r.extensionId) = some r.reread :=
      (get_storePush (r := r.reread) hnew).trans (if_pos rfl)
    refine ⟨r.extensionId, ?_, ?_, fun h => ?_⟩
    · rw [hkept, get_eq_none.mpr hnew]
      simp
    · rw [hreread, get_eq_none.mpr hnew]
      simp
    · rw [hkept, hreread] at h
      intro r' hr'
      obtain rfl := Option.some.inj (hfull.symm.trans hr')
      exact ManifestRecord.reread_eq_self.mp (Option.some.inj h)

theorem appends_uninstall {id : CStr} {idx : ℕ} (hidx : findIdx entries (some id) = some idx) :
    Appends entries (.uninstall (some id)) (objectText (opMember "uninstall") (uninstallMembers id))
      (storeDeleteIdx entries idx) (storeDeleteIdx entries idx) where
  isLine := ⟨_, _, rfl⟩
  replays := by rw [applyLogLine_uninstall, hidx]
  distinct hd := hd.storeDeleteIdx
  keeps hd id' := by
    rw [get_storeDeleteIdx hd hidx]
    simp [settle]
  same _ := rfl
  changes hd := by
    have hkept : get (storeDeleteIdx entries idx) (some id) = none := by
      rw [get_storeDeleteIdx hd hidx, if_pos rfl]
    have hsome : get entries (some id) ≠ none := by
      rw [Ne, get_eq_none, hidx]
      simp
    refine ⟨id, ?_, ?_, fun _ => trivial⟩ <;> rwa [hkept]

theorem fullRecord_id {args : ManifestInstallArgs} {now : Int64} {r : ManifestRecord}
    (h : fullRecord args now = some r) : args.extensionId = some r.extensionId := by
  simp only [fullRecord, Option.bind_eq_bind, Option.bind_eq_some_iff] at h
  obtain ⟨id, hid, version, -, source, -, manifestJson, -, h⟩ := h
  obtain rfl := Option.some.inj h
  exact hid

/-- What a call does: it is refused and changes nothing, or its append decides. -/
theorem call_cases (reg : ManifestRegistry) (c : ManifestCall) (io : AppendIo) :
    (reg.appends c = none ∧ ∃ e, reg.call io c = (.error e, reg)) ∨
      ∃ line kept reread, reg.appends c = some line ∧ Appends reg.entries c line kept reread ∧
        reg.call io c = ((persistLine io line reg.log).1,
          ⟨match (persistLine io line reg.log).1 with
            | .ok () => kept
            | .error _ => reg.entries, (persistLine io line reg.log).2⟩) := by
  cases c with
  | install now args =>
    by_cases hdup : (findIdx reg.entries args.extensionId).isSome
    · refine .inl ⟨if_pos hdup, .einval, ?_⟩
      simp [call, install, hdup, Except.map]
    cases hfull : fullRecord args now with
    | none =>
      refine .inl ⟨by simp [appends, hdup, hfull], .enomem, ?_⟩
      simp [call, install, hdup, hfull, Except.map]
    | some r =>
      have hnew : findIdx reg.entries (some r.extensionId) = none := by
        rw [← fullRecord_id hfull]
        simpa using hdup
      refine .inr ⟨_, _, _, ?_, appends_install hfull hnew, ?_⟩
      · simp [appends, hdup, hfull, buildInstallLine_eq]
      · simp only [call, install, hdup, hfull, buildInstallLine_eq]
        cases io <;> rfl
  | uninstall id =>
    cases hidx : findIdx reg.entries id with
    | none =>
      refine .inl ⟨by simp [appends, hidx], .enotfound, ?_⟩
      simp [call, uninstall, hidx]
    | some idx =>
      obtain ⟨id, rfl, -⟩ := Option.bind_eq_some_iff.mp hidx
      refine .inr ⟨_, _, _, ?_, appends_uninstall hidx, ?_⟩
      · simp [appends, hidx, buildUninstallLine_eq]
      · simp only [call, uninstall, hidx, Option.bind_some, buildUninstallLine_eq]
        cases io <;> rfl

end Appends

section Runs

open ManifestRun

/-- The log is a part that replays to the store, with a torn line at its end or without, and the
store has the record of every id that the calls that returned `BNS_OK` gave it. -/
structure Consistent (r : ManifestRun) : Prop where
  log : ∃ done t, r.reg.log = done ++ t ∧ Terminated done ∧ 0 ∉ done ∧
    replay done = .ok r.reg.entries ∧ (t = [] ∨ TornLine t)
  distinct : DistinctIds r.reg.entries
  agrees : ∀ id, get r.reg.entries (some id) = settled r.history id

variable {r : ManifestRun} {c : ManifestCall} {io : AppendIo}

theorem consistent_start : Consistent start where
  log := ⟨[], [], rfl, by simp [Terminated], by simp, rfl, .inl rfl⟩
  distinct := List.nodup_nil
  agrees _ := rfl

theorem durable_iff_of_replay {entries : List ManifestRecord} (h : replay r.reg.log = .ok entries) :
    r.Durable ↔ ∀ id, get entries (some id) = settled r.history id := by
  unfold Durable manifestRegistryNew
  rw [h]
  refine ⟨?_, fun h => ⟨_, rfl, h⟩⟩
  rintro ⟨reg, hreg, h⟩
  obtain rfl := Except.ok.inj hreg
  exact h

theorem settled_snoc (history : List (ManifestCall × Except Err Unit))
    (x : ManifestCall × Except Err Unit) (id : CStr) :
    settled (history ++ [x]) id = settle id (settled history id) x := List.foldl_concat ..

theorem settle_error {id : CStr} {kept : Option ManifestRecord} {e : Err} :
    settle id kept (c, .error e) = kept := by
  cases c <;> rfl

/-- A terminated log has no torn line at its end. -/
theorem not_terminated {done t : Bytes} (ht : TornLine t) : ¬Terminated (done ++ t) := by
  intro h
  have hlast := List.getLast?_eq_some_getLast ht.ne_nil
  have hmem := List.getLast_mem ht.ne_nil
  have h10 : t.getLast ht.ne_nil = 10 := h _ (by simp [List.getLast?_append, hlast])
  rw [h10] at hmem
  exact absurd (ht.visible 10 hmem) (by decide)

theorem Terminated.newline {done : Bytes} : Terminated (done ++ [10]) := by
  simp [Terminated]

namespace Consistent

variable (hr : Consistent r) {line : Bytes} {kept reread : List ManifestRecord}

include hr

theorem replay_eq : replay r.reg.log = .ok r.reg.entries := by
  obtain ⟨done, t, hlog, hterm, h0, hreplay, ht⟩ := hr.log
  rw [hlog]
  rcases ht with rfl | ht
  · rwa [List.append_nil]
  · rw [replay_append hterm h0 ht.visible ht.ne_nil hreplay, applyLogLine, ht.parse_eq_none]

theorem durable : r.Durable := (durable_iff_of_replay hr.replay_eq).mpr hr.agrees

/-- A line appended to a terminated log is replayed. -/
theorem replay_line (hterm : Terminated r.reg.log)
    (happ : Appends r.reg.entries c line kept reread) :
    0 ∉ r.reg.log ++ line ∧ replay (r.reg.log ++ line) = .ok reread := by
  obtain ⟨done, t, hlog, hdone, h0, hreplay, ht⟩ := hr.log
  obtain ⟨op, ms, hline⟩ := happ.isLine
  have hvisible : ∀ c ∈ line, 31 < c := hline ▸ objectText_visible
  rcases ht with rfl | ht
  · rw [List.append_nil] at hlog
    rw [hlog]
    refine ⟨?_, ?_⟩
    · simp [h0, not_mem_of_visible hvisible (show ¬31 < 0 by decide)]
    · rw [replay_append hdone h0 hvisible (by rw [hline]; simp [objectText]) hreplay, happ.replays]
  · exact absurd (hlog ▸ hterm) (not_terminated ht)

/-- A line appended behind a torn one is skipped with it. -/
theorem replay_behind_torn (hterm : ¬Terminated r.reg.log)
    (happ : Appends r.reg.entries c line kept reread) :
    0 ∉ r.reg.log ++ line ∧ replay (r.reg.log ++ line) = .ok r.reg.entries := by
  obtain ⟨done, t, hlog, hdone, h0, hreplay, ht⟩ := hr.log
  obtain ⟨op, ms, hline⟩ := happ.isLine
  rcases ht with rfl | ht
  · rw [List.append_nil] at hlog
    exact absurd (hlog ▸ hdone) hterm
  · have htorn := ht.append (T := line) ⟨op, ms, hline ▸ List.prefix_refl line⟩
    rw [hlog, List.append_assoc]
    refine ⟨?_, ?_⟩
    · simp only [List.mem_append, not_or]
      exact ⟨h0, by simpa using not_mem_of_visible htorn.visible (show ¬31 < 0 by decide)⟩
    · rw [replay_append hdone h0 htorn.visible htorn.ne_nil hreplay, applyLogLine,
        htorn.parse_eq_none]

/-- A safe call keeps the log true to the calls that returned `BNS_OK`. -/
theorem step {e : ManifestCall × AppendIo} (hsafe : AppendSafe r.reg e) :
    Consistent (r.step e) := by
  obtain ⟨c, io⟩ := e
  have hfailed : ∀ err id,
      get r.reg.entries (some id) = settled (r.history ++ [(c, .error err)]) id := fun err id => by
    rw [settled_snoc, settle_error]
    exact hr.agrees id
  unfold ManifestRun.step
  rcases call_cases r.reg c io with ⟨-, err, hcall⟩ | ⟨line, kept, reread, hline, happ, hcall⟩
  · rw [hcall]
    exact ⟨hr.log, hr.distinct, hfailed err⟩
  have hsafe := hsafe line hline
  rw [hcall]
  cases io with
  | ok =>
    obtain ⟨hterm, hreplayable⟩ := hsafe
    obtain ⟨h0, hreplay⟩ := hr.replay_line hterm happ
    refine ⟨⟨r.reg.log ++ line ++ [10], [], (List.append_nil _).symm, .newline, by simpa using h0,
      ?_, .inl rfl⟩, happ.distinct hr.distinct, fun id => ?_⟩
    · rw [replay_newline h0, hreplay, happ.same hreplayable]
      rfl
    · rw [settled_snoc, ← hr.agrees]
      exact happ.keeps hr.distinct id
  | torn written =>
    obtain ⟨done, t, hlog, hdone, h0, hreplay, ht⟩ := hr.log
    obtain ⟨op, ms, hobject⟩ := happ.isLine
    refine ⟨⟨done, t ++ line.take written, ?_, hdone, h0, hreplay, ?_⟩, hr.distinct, hfailed _⟩
    · show r.reg.log ++ line.take written = _
      rw [hlog, List.append_assoc]
    · rcases ht with rfl | ht
      · have hlt : written < line.length := hsafe (by rwa [hlog, List.append_nil])
        rw [List.nil_append]
        by_cases hnil : line.take written = []
        · exact .inl hnil
        · refine .inr ⟨op, ms, _, [], hobject ▸ List.take_prefix written line, ?_, hnil, scraps_nil,
            (List.append_nil _).symm⟩
          intro h
          rw [← hobject, List.take_eq_self_iff] at h
          omega
      · exact .inr (ht.append ⟨op, ms, hobject ▸ List.take_prefix written line⟩)
  | unsynced =>
    obtain ⟨h0, hreplay⟩ := hr.replay_behind_torn hsafe happ
    refine ⟨⟨r.reg.log ++ line ++ [10], [], (List.append_nil _).symm, .newline, by simpa using h0,
      ?_, .inl rfl⟩, hr.distinct, hfailed _⟩
    rw [replay_newline h0, hreplay]
    rfl

/-- Any other call breaks it at once. -/
theorem not_durable {e : ManifestCall × AppendIo} (hsafe : ¬AppendSafe r.reg e) :
    ¬(r.step e).Durable := by
  obtain ⟨c, io⟩ := e
  unfold ManifestRun.step
  rcases call_cases r.reg c io with ⟨hnone, -⟩ | ⟨line, kept, reread, hline, happ, hcall⟩
  · exact absurd (fun line hline => by simp [hnone] at hline) hsafe
  obtain ⟨id, hkept, hreread, hsame⟩ := happ.changes hr.distinct
  -- what the calls that returned `BNS_OK` say about `id`, whether this one did or not
  have hok := happ.keeps hr.distinct id
  rw [hr.agrees] at hok hkept hreread
  have hio : ¬io.Safe r.reg.log c line := by
    refine fun h => hsafe fun line' hline' => ?_
    obtain rfl := Option.some.inj (hline.symm.trans hline')
    exact h
  rw [hcall]
  cases io with
  | ok =>
    by_cases hterm : Terminated r.reg.log
    · obtain ⟨h0, hreplay⟩ := hr.replay_line hterm happ
      rw [durable_iff_of_replay ((replay_newline h0).trans hreplay)]
      intro h
      have hid := h id
      rw [settled_snoc] at hid
      exact hio ⟨hterm, hsame (hid.trans hok.symm)⟩
    · obtain ⟨h0, hreplay⟩ := hr.replay_behind_torn hterm happ
      rw [durable_iff_of_replay ((replay_newline h0).trans hreplay)]
      intro h
      have hid := h id
      rw [settled_snoc] at hid
      exact hkept ((hr.agrees id).symm.trans (hid.trans hok.symm))
  | torn written =>
    obtain ⟨hterm, hlen⟩ := Classical.not_imp.mp hio
    obtain ⟨-, hreplay⟩ := hr.replay_line hterm happ
    have hall : replay (r.reg.log ++ line.take written) = .ok reread := by
      rw [List.take_of_length_le (not_lt.mp hlen), hreplay]
    rw [durable_iff_of_replay hall]
    intro h
    have hid := h id
    rw [settled_snoc] at hid
    exact hreread (hid.trans settle_error).symm
  | unsynced =>
    have hterm := not_not.mp hio
    obtain ⟨h0, hreplay⟩ := hr.replay_line hterm happ
    rw [durable_iff_of_replay ((replay_newline h0).trans hreplay)]
    intro h
    have hid := h id
    rw [settled_snoc] at hid
    exact hreread (hid.trans settle_error).symm

end Consistent

theorem ManifestRun.consistent (es : List (ManifestCall × AppendIo)) :
    (∀ pre e, pre ++ [e] <+: es → AppendSafe (run step start pre).reg e) →
      Consistent (run step start es) := by
  induction es using List.reverseRecOn with
  | nil => exact fun _ => consistent_start
  | append_singleton es e ih =>
    intro hsafe
    rw [run_snoc]
    exact (ih fun pre e' h => hsafe pre e' (h.trans (List.prefix_append ..))).step
      (hsafe es e List.prefix_rfl)

/-- The log agrees with the calls that returned `BNS_OK` all along a run exactly when every call of
it is safe. -/
theorem ManifestRun.durable_iff (es : List (ManifestCall × AppendIo)) :
    (∀ pre, pre <+: es → (run step start pre).Durable) ↔
      ∀ pre e, pre ++ [e] <+: es → AppendSafe (run step start pre).reg e := by
  refine ⟨fun hdurable => ?_, fun hsafe pre hpre => ?_⟩
  · -- the first call that is not safe would break the log
    have hconsistent : ∀ pre, pre <+: es → Consistent (run step start pre) := by
      intro pre
      induction pre using List.reverseRecOn with
      | nil => exact fun _ => consistent_start
      | append_singleton pre e ih =>
        intro hpre
        have hr := ih ((List.prefix_append ..).trans hpre)
        have hstep := hdurable _ hpre
        rw [run_snoc] at hstep ⊢
        by_contra hnot
        exact hr.not_durable (fun hsafe => hnot (hr.step hsafe)) hstep
    intro pre e hpre
    have hr := hconsistent pre ((List.prefix_append ..).trans hpre)
    have hstep := hdurable _ hpre
    rw [run_snoc] at hstep
    by_contra hnot
    exact hr.not_durable hnot hstep
  · exact (consistent pre fun pre' e h => hsafe pre' e (h.trans hpre)).durable

/-- The install of `id` at version 1. -/
def exampleInstall (id : String) : ManifestCall :=
  .install 1700000000 ⟨some (literal id), some (literal "1"), some (literal "src"),
    some (literal "\x7b\x7d"), none, none, none⟩

/-- The second install runs on from the torn line of the first and is lost with it. -/
theorem ManifestRun.durable_torn_install :
    let r := run step start [(exampleInstall "a", .torn 10), (exampleInstall "b", .ok)]
    r.history.map (·.2) = [.error .epersist, .ok ()] ∧ ¬r.Durable := by
  refine ⟨rfl, ?_⟩
  have hreplay : ∃ entries, replay (run step start
      [(exampleInstall "a", .torn 10), (exampleInstall "b", .ok)]).reg.log = .ok entries ∧
        entries = [] := by decide +kernel
  obtain ⟨entries, hreplay, rfl⟩ := hreplay
  rw [durable_iff_of_replay hreplay]
  intro h
  exact absurd (h (literal "b")) (by decide +kernel)

end Runs

section Reopen

open ManifestRun

theorem int64OfDouble_toInt {n : Int64} (h : |n.toInt| ≤ 2 ^ 53) :
    int64OfDouble (.ofRat n.toInt) = n := by
  rw [Binary64.ofRat_intCast h]
  simp only [int64OfDouble, truncate_intCast]
  rw [if_pos ⟨n.minValue_le_toInt, n.toInt_le⟩, Int64.ofInt_toInt]

theorem ManifestCall.WellFormed.replayable {c : ManifestCall} (h : c.WellFormed) :
    c.Replayable := by
  cases c with
  | install now args =>
    obtain ⟨hsigner, hpublish, hinstalled⟩ := h
    intro r hr
    simp only [fullRecord, Option.bind_eq_bind, Option.mem_def, Option.bind_eq_some_iff,
      Option.some.injEq] at hr
    obtain ⟨id, -, version, -, source, -, manifestJson, -, rfl⟩ := hr
    exact ⟨hsigner, hpublish, int64OfDouble_toInt hinstalled⟩
  | uninstall id => exact trivial

/-- A call that succeeds ends the log with its line, and a refused one leaves it. -/
theorem terminated_call {reg : ManifestRegistry} (h : Terminated reg.log) (c : ManifestCall) :
    Terminated (reg.call .ok c).2.log := by
  rcases call_cases reg c .ok with ⟨-, e, hcall⟩ | ⟨line, kept, reread, -, -, hcall⟩
  · rw [hcall]
    exact h
  · rw [hcall]
    exact .newline

theorem ManifestRun.persisted_consistent (calls : List ManifestCall) :
    (∀ c ∈ calls, c.WellFormed) →
      Consistent (persisted calls) ∧ Terminated (persisted calls).reg.log := by
  unfold persisted
  induction calls using List.reverseRecOn with
  | nil => exact fun _ => ⟨consistent_start, by simp [Terminated, start]⟩
  | append_singleton calls c ih =>
    intro hcalls
    rw [List.forall_mem_append, List.forall_mem_singleton] at hcalls
    obtain ⟨hr, hterm⟩ := ih hcalls.1
    rw [List.map_append, List.map_singleton, run_snoc]
    refine ⟨hr.step fun line _ => ⟨hterm, hcalls.2.replayable⟩, terminated_call hterm c⟩

/-- A new registry on the log of a run whose appends succeed is the registry that wrote it, and what
was refused left nothing in the log. -/
theorem ManifestRun.reopens (calls : List ManifestCall) (hcalls : ∀ c ∈ calls, c.WellFormed) :
    manifestRegistryNew (persisted calls).reg.log = .ok (persisted calls).reg
      ∧ DistinctIds (persisted calls).reg.entries
      ∧ ∀ c e, ((persisted calls).reg.call .ok c).1 = .error e →
        ((persisted calls).reg.call .ok c).2 = (persisted calls).reg := by
  obtain ⟨hr, -⟩ := persisted_consistent calls hcalls
  refine ⟨?_, hr.distinct, fun c e herror => ?_⟩
  · unfold manifestRegistryNew
    rw [hr.replay_eq]
    rfl
  · rcases call_cases (persisted calls).reg c .ok with ⟨-, e', hcall⟩ | ⟨line, kept, reread, -, -,
      hcall⟩
    · rw [hcall]
    · rw [hcall] at herror
      exact nomatch herror

/-- Two installs, the first uninstalled and installed again. -/
def exampleReinstall : List ManifestCall :=
  [exampleInstall "a", exampleInstall "b", exampleInstall "b", .uninstall (some (literal "a")),
    .uninstall (some (literal "a")), exampleInstall "a"]

theorem ManifestRun.reopens_reinstall :
    manifestRegistryNew (persisted exampleReinstall).reg.log = .ok (persisted exampleReinstall).reg
      ∧ (persisted exampleReinstall).reg.entries.map (·.extensionId)
        = [literal "b", literal "a"] := by
  have hinstall : ∀ id, (exampleInstall id).WellFormed := fun id =>
    ⟨(fun s hs => nomatch hs), (fun s hs => nomatch hs), by
      show |(1700000000 : Int64).toInt| ≤ 2 ^ 53
      decide⟩
  refine ⟨(reopens exampleReinstall ?_).1, by decide +kernel⟩
  intro c hc
  simp only [exampleReinstall, List.mem_cons, List.not_mem_nil, or_false] at hc
  rcases hc with rfl | rfl | rfl | rfl | rfl | rfl
  · exact hinstall _
  · exact hinstall _
  · exact hinstall _
  · exact trivial
  · exact trivial
  · exact hinstall _

end Reopen

end BonsaiChain
