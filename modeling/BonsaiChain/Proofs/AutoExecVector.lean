import BonsaiChain.AutoExecVector
import BonsaiChain.Lib.Segments
import Mathlib.Tactic.SplitIfs

/-!
# What the lint finds

A path is reported if its segments, without the dots and blanks at their ends, have a known vector
at the end of them; so a `.` or an empty segment inside the name of a vector hides it, and one in
front of it does not. Of a `package.json` only the first `scripts` is looked into.
-/

namespace BonsaiChain

open Lib

section Match

theorem not_isVector_nil : ¬IsVector [] := by decide

theorem matchVector_cons_isSome (seg : CString) (rest : List CString) :
    (matchVector (seg :: rest)).isSome ↔ IsVector (seg :: rest) ∨ (matchVector rest).isSome := by
  have hexact : (forbiddenExact.find? (· == [47].intercalate (seg :: rest))).isSome
      ↔ [47].intercalate (seg :: rest) ∈ forbiddenExact := by simp
  have hstart : (forbiddenPrefixes.find? (·.isPrefixOf ([47].intercalate (seg :: rest)))).isSome
      ↔ ∃ start ∈ forbiddenPrefixes, start <+: [47].intercalate (seg :: rest) := by simp
  unfold IsVector
  rw [← hexact, ← hstart, matchVector]
  split <;> simp_all

/-- The segments match if a known vector stands at the end of them. -/
theorem matchVector_isSome_iff {segs : List CString} :
    (matchVector segs).isSome ↔ ∃ tail, tail <:+ segs ∧ IsVector tail := by
  induction segs with
  | nil => simp [matchVector, not_isVector_nil]
  | cons seg rest ih =>
    rw [matchVector_cons_isSome, ih]
    simp only [List.suffix_cons_iff, or_and_right, exists_or, exists_eq_left]

end Match

section Paths

theorem slash_not_mem_trimSegment {seg : CString} (h : 47 ∉ seg) : 47 ∉ trimSegment seg :=
  fun hmem => h ((List.rdropWhile_prefix _ seg).subset hmem)

theorem canonicalSegments_eq_map {segs : List CString} (h : ∀ seg ∈ segs, !isIdle seg) :
    canonicalSegments segs = segs.map trimSegment := by
  unfold canonicalSegments
  rw [List.filter_eq_self.2 h]

/-- The lint cuts the path at the same places, and leaves out a `.` it starts with. -/
theorem normalizeSegments_eq (path : CString) :
    normalizeSegments path = (pathSegments path).map trimSegment
      ∨ ∃ segs, pathSegments path = [46] :: segs
        ∧ normalizeSegments path = segs.map trimSegment := by
  unfold normalizeSegments pathSegments
  simp only []
  split_ifs with hdot
  · right
    obtain ⟨rest, hrest⟩ := List.isPrefixOf_iff_prefix.1 hdot
    rw [← hrest]
    refine ⟨rest.splitOn 47, ?_, rfl⟩
    exact List.splitOn_append_cons_self_of_not_mem (show (47 : UInt8) ∉ [46] by decide) rest
  · exact .inl rfl

theorem suffix_normalizeSegments {path : CString} {before behind : List CString}
    (h : pathSegments path = before ++ behind) (hhead : ∀ seg ∈ behind.head?, !isIdle seg) :
    behind.map trimSegment <:+ normalizeSegments path := by
  rcases normalizeSegments_eq path with hn | ⟨segs, hsegs, hn⟩
  · rw [hn, h, List.map_append]
    exact List.suffix_append _ _
  · rw [hn]
    rw [hsegs] at h
    cases before with
    | nil =>
      rw [List.nil_append] at h
      rw [← h] at hhead
      exact absurd (hhead [46] rfl) (by decide)
    | cons dot before =>
      obtain ⟨-, rfl⟩ : [46] = dot ∧ segs = before ++ behind := by simpa using h
      rw [List.map_append]
      exact List.suffix_append _ _

/-- What follows the two segments of a prefix is of no account, as long as something does where
something has to. -/
theorem prefix_vector_congr {start a b : CString} {rest rest' : List CString}
    (hstart : start ∈ forbiddenPrefixes) (ha : 47 ∉ a) (hb : 47 ∉ b)
    (hne : rest ≠ [] → rest' ≠ []) (h : start <+: [47].intercalate (a :: b :: rest)) :
    start <+: [47].intercalate (a :: b :: rest') := by
  simp only [forbiddenPrefixes, List.mem_cons, List.not_mem_nil, or_false] at hstart
  rcases hstart with rfl | rfl
  · have hcut : ascii ".cursor/rules" = ascii ".cursor" ++ 47 :: ascii "rules" := by decide
    rw [hcut, prefix_intercalate_cons_iff (by decide) ha, prefix_intercalate_iff (by decide)] at h ⊢
    exact ⟨h.1, by simp, h.2.2⟩
  · have hcut : ascii ".idea/runconfigurations/"
        = ascii ".idea" ++ 47 :: (ascii "runconfigurations" ++ 47 :: []) := by decide
    rw [hcut, prefix_intercalate_cons_iff (by decide) ha,
      prefix_intercalate_cons_iff (by decide) hb] at h ⊢
    exact ⟨h.1, by simp, h.2.2.1, hne h.2.2.2.1, by simp⟩

/-- What names a vector, with idle segments in front of the name or behind a prefix only, is a
vector as the lint reads it. -/
theorem isVector_trim {behind : List CString} (hslash : ∀ seg ∈ behind, 47 ∉ seg)
    (h : (∀ seg ∈ behind, !isIdle seg)
        ∧ [47].intercalate (canonicalSegments behind) ∈ forbiddenExact
      ∨ (∀ seg ∈ behind.take 2, !isIdle seg)
        ∧ ∃ start ∈ forbiddenPrefixes, start <+: [47].intercalate (canonicalSegments behind)) :
    IsVector (behind.map trimSegment) := by
  rcases h with ⟨hidle, hfile⟩ | ⟨hidle, start, hmem, hstart⟩
  · rw [canonicalSegments_eq_map hidle] at hfile
    exact .inl hfile
  · refine .inr ⟨start, hmem, ?_⟩
    rcases behind with _ | ⟨a, _ | ⟨b, rest⟩⟩
    · rw [canonicalSegments_eq_map (by simp)] at hstart
      exact hstart
    · rw [canonicalSegments_eq_map (by simpa using hidle)] at hstart
      exact hstart
    · obtain ⟨hia, hib⟩ : (!isIdle a) ∧ !isIdle b := by simpa using hidle
      have hc : canonicalSegments (a :: b :: rest)
          = trimSegment a :: trimSegment b :: canonicalSegments rest := by
        unfold canonicalSegments
        simp only [List.filter_cons, hia, hib, if_true, List.map_cons]
      rw [hc] at hstart
      refine prefix_vector_congr hmem (slash_not_mem_trimSegment (hslash a (by simp)))
        (slash_not_mem_trimSegment (hslash b (by simp))) ?_ hstart
      intro hne hnil
      simp only [List.map_eq_nil_iff] at hnil
      simp [hnil, canonicalSegments] at hne

/-- A path that spells a vector matches. -/
theorem matchVector_of_spells {path : CString} (h : SpellsVector path) :
    (matchVector (normalizeSegments path)).isSome := by
  obtain ⟨before, behind, hpath, hspelt⟩ := h
  have hslash : ∀ seg ∈ behind, 47 ∉ seg := fun seg hseg =>
    not_mem_of_mem_splitOn (show seg ∈ pathSegments path from hpath ▸ List.mem_append_right _ hseg)
  refine matchVector_isSome_iff.2 ⟨_, suffix_normalizeSegments hpath ?_,
    isVector_trim hslash hspelt⟩
  intro seg hseg
  rcases hspelt with ⟨hidle, -⟩ | ⟨hidle, -⟩
  · exact hidle seg (List.mem_of_mem_head? hseg)
  · cases behind with
    | nil => simp at hseg
    | cons a rest =>
      obtain rfl : a = seg := by simpa using hseg
      exact hidle a (by simp)

end Paths

section Report

theorem lintManifest_clean_eq_false_iff {manifest : List ManifestEntry} :
    (lintManifest manifest).clean = false ↔ ∃ e ∈ manifest, lintEntry e ≠ [] := by
  simp [lintManifest]

theorem lintPackageJson_ne_nil_iff {path content : CString} :
    lintPackageJson path content ≠ [] ↔ ∀ root ∈ CJson.parse content, firstScriptsHook root := by
  unfold lintPackageJson firstScriptsHook
  rcases CJson.parse content with _ | root
  · simp
  · rcases hs : CJson.getObjectItem (ascii "scripts") root with _ | scripts <;> simp [hs]

/-- An entry is reported if it has what the lint looks for. -/
theorem lintEntry_ne_nil_iff {e : ManifestEntry} : lintEntry e ≠ [] ↔ e.Shows := by
  unfold lintEntry ManifestEntry.Shows ManifestEntry.isPackageJson
  rw [← matchVector_isSome_iff]
  rcases hm : matchVector (normalizeSegments e.path) with _ | rule
  · rcases hc : e.content with _ | content
    · simp [hm]
    · by_cases hp : (normalizeSegments e.path).getLast? = some (ascii "package.json")
      · have hjson : lintPackageJson e.path content ≠ []
            ↔ ∀ root ∈ CJson.parse content, firstScriptsHook root := lintPackageJson_ne_nil_iff
        simpa [hm, hp] using hjson
      · simp [hm, hp]
  · simp [hm]

/-- A path whose name of a vector has no idle segment in it is reported, however it is spelled
otherwise. -/
theorem lintManifest_reports_vector {manifest : List ManifestEntry} {e : ManifestEntry}
    (he : e ∈ manifest) (h : SpellsVector e.path) :
    (lintManifest manifest).clean = false
      ∧ ∃ rule, ⟨e.path, rule, ascii "known auto-exec vector"⟩
        ∈ (lintManifest manifest).violations := by
  obtain ⟨rule, hrule⟩ := Option.isSome_iff_exists.1 (matchVector_of_spells h)
  have hv : (⟨e.path, rule, ascii "known auto-exec vector"⟩ : LintViolation) ∈ lintEntry e := by
    simp [lintEntry, hrule]
  refine ⟨lintManifest_clean_eq_false_iff.2 ⟨e, he, List.ne_nil_of_mem hv⟩, rule, ?_⟩
  exact List.mem_flatMap.2 ⟨e, he, hv⟩

theorem lintManifest_reports_vector_tasks :
    (lintManifest [⟨ascii "./a//.VSCode. \\Tasks.json.", none⟩]).clean = false
      ∧ ∃ rule, ⟨ascii "./a//.VSCode. \\Tasks.json.", rule, ascii "known auto-exec vector"⟩
        ∈ (lintManifest [⟨ascii "./a//.VSCode. \\Tasks.json.", none⟩]).violations := by
  refine lintManifest_reports_vector (List.mem_singleton_self _)
    ⟨[ascii ".", ascii "a", []], [ascii ".vscode. ", ascii "tasks.json."], by decide, .inl ?_⟩
  decide

/-- A `.` inside the name of a vector names the same file, and the lint passes it. -/
theorem lintManifest_misses_dot :
    NamesVector (ascii ".vscode/./tasks.json")
      ∧ (lintManifest [⟨ascii ".vscode/./tasks.json", none⟩]).clean = true :=
  ⟨⟨[ascii ".vscode", ascii "tasks.json"], by decide, by decide⟩, by decide⟩

/-- A path that spells a vector names it. -/
theorem SpellsVector.names {path : CString} (h : SpellsVector path) : NamesVector path := by
  obtain ⟨before, behind, hpath, hspelt⟩ := h
  refine ⟨canonicalSegments behind, ?_, ?_⟩
  · rw [hpath]
    unfold canonicalSegments
    rw [List.filter_append, List.map_append]
    exact List.suffix_append _ _
  · rcases hspelt with ⟨-, hfile⟩ | ⟨-, hstart⟩
    · exact .inl hfile
    · exact .inr hstart

end Report

section Hooks

variable {members : List (CStr × CJson.Json)}

theorem hasObjectItem_of_hasMember {hook : CString} {scripts : CJson.Json}
    (h : hasMember hook scripts) : CJson.hasObjectItem hook scripts := by
  cases scripts with
  | object members =>
    obtain ⟨m, hm, hname⟩ := List.any_eq_true.1 h
    exact List.any_eq_true.2 ⟨m, hm, by simp [beq_iff_eq.1 hname]⟩
  | _ => simp [hasMember] at h

/-- An object that does not repeat `scripts` is read alike by the lint and by who runs its hooks. -/
theorem firstScriptsHook_of_runsHook
    (honce : (members.filter fun m => m.1.val = ascii "scripts").length ≤ 1)
    (h : runsHook (.object members)) : firstScriptsHook (.object members) := by
  have hsame : effectiveItem (ascii "scripts") (.object members)
      = CJson.getObjectItem (ascii "scripts") (.object members) := by
    unfold effectiveItem CJson.getObjectItem
    simp only [← List.head?_filter, List.filter_reverse]
    rcases hf : members.filter fun m => m.1.val = ascii "scripts" with _ | ⟨m, _ | ⟨m', rest⟩⟩
    · rw [hf, List.reverse_nil]
    · rw [hf, List.reverse_singleton]
    · simp [hf] at honce
  unfold runsHook at h
  unfold firstScriptsHook
  rw [hsame] at h
  rcases hs : CJson.getObjectItem (ascii "scripts") (.object members) with _ | scripts
  · simp [hs] at h
  · rw [hs] at h
    obtain ⟨hook, hmem, hhook⟩ := List.any_eq_true.1 h
    exact List.any_eq_true.2 ⟨hook, hmem, hasObjectItem_of_hasMember hhook⟩

/-- The lint reports every manifest whose installation runs a script if it sees a script or a vector
in one of them whose installation does. -/
theorem lintManifest_hooks_iff (manifest : List ManifestEntry) :
    (∀ e ∈ manifest, e.RunsHook → (lintManifest manifest).clean = false)
      ↔ ((∃ e ∈ manifest, e.RunsHook) → ∃ e ∈ manifest, e.Shows) := by
  simp only [lintManifest_clean_eq_false_iff, lintEntry_ne_nil_iff]
  exact ⟨fun h ⟨e, he, hrun⟩ => h e he hrun, fun h e he hrun => h ⟨e, he, hrun⟩⟩

/-- A second `scripts` replaces the first in the package manager, and only the first is looked
into. -/
theorem lintManifest_misses_second_scripts :
    (⟨ascii "package.json",
      some (ascii "\x7b\"scripts\":\x7b\x7d,\"scripts\":\x7b\"install\":1\x7d\x7d")⟩
        : ManifestEntry).RunsHook
      ∧ (lintManifest [⟨ascii "package.json",
          some (ascii "\x7b\"scripts\":\x7b\x7d,\"scripts\":\x7b\"install\":1\x7d\x7d")⟩]).clean
        = true := by
  decide +kernel

end Hooks

end BonsaiChain
