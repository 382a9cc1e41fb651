import BonsaiChain.AutoExecLinter

/-!
# What runs on its own

Which files of a release start a program when its folder is opened or its package is installed,
however their paths are spelled and their members are ordered: what the lint has to find.
-/

namespace BonsaiChain

open Lib

section Paths

/-- The segments of a path, in lower case, with either separator between. -/
def pathSegments (path : CString) : List CString :=
  (path.map fun c => CJson.tolower (if c = 92 then 47 else c)).splitOn 47

/-- A segment that stays in the folder it stands in. -/
def isIdle (seg : CString) : Bool := seg == [] || seg == [46]

/-- A segment without the dots and blanks at its end. -/
def trimSegment (seg : CString) : CString := seg.rdropWhile fun c => c == 46 || c == 32

/-- The segments that all spellings of a path have in common. -/
def canonicalSegments (segs : List CString) : List CString :=
  (segs.filter (!isIdle ·)).map trimSegment

/-- The segments are a forbidden file, or they start with a forbidden prefix. -/
def IsVector (segs : List CString) : Prop :=
  [47].intercalate segs ∈ forbiddenExact
    ∨ ∃ start ∈ forbiddenPrefixes, start <+: [47].intercalate segs

instance (segs : List CString) : Decidable (IsVector segs) :=
  inferInstanceAs (Decidable (_ ∨ _))

/-- The path names a forbidden file or a file below a forbidden prefix. -/
def NamesVector (path : CString) : Prop :=
  ∃ tail, tail <:+ canonicalSegments (pathSegments path) ∧ IsVector tail

/-- The path names a vector, and no idle segment stands in what names it: among the segments of the
file, or in the two of the prefix. -/
def SpellsVector (path : CString) : Prop :=
  ∃ before behind, pathSegments path = before ++ behind ∧
    ((∀ seg ∈ behind, !isIdle seg)
        ∧ [47].intercalate (canonicalSegments behind) ∈ forbiddenExact
      ∨ (∀ seg ∈ behind.take 2, !isIdle seg)
        ∧ ∃ start ∈ forbiddenPrefixes, start <+: [47].intercalate (canonicalSegments behind))

end Paths

section Hooks

/-- The member of this name that is left when a later one replaces an earlier one. -/
def effectiveItem (name : CString) : CJson.Json → Option CJson.Json
  | .object members => (members.reverse.find? fun m => m.1.val = name).map (·.2)
  | _ => none

/-- Some member has this very name. -/
def hasMember (name : CString) : CJson.Json → Bool
  | .object members => members.any fun m => m.1.val == name
  | _ => false

/-- Installing a package with this manifest runs a script. -/
def runsHook (root : CJson.Json) : Bool :=
  (effectiveItem (ascii "scripts") root).any fun scripts =>
    packageJsonHooks.any (hasMember · scripts)

/-- The first `scripts` has a hook, in whatever letter case. -/
def firstScriptsHook (root : CJson.Json) : Bool :=
  (CJson.getObjectItem (ascii "scripts") root).any fun scripts =>
    packageJsonHooks.any (CJson.hasObjectItem · scripts)

def ManifestEntry.isPackageJson (e : ManifestEntry) : Bool :=
  (normalizeSegments e.path).getLast? == some (ascii "package.json")

/-- The entry is the manifest of a package, and installing the package runs a script. -/
def ManifestEntry.RunsHook (e : ManifestEntry) : Prop :=
  e.isPackageJson ∧ e.content.any fun content => (CJson.parse content).any runsHook

instance (e : ManifestEntry) : Decidable e.RunsHook := inferInstanceAs (Decidable (_ ∧ _))

/-- The entry has what the lint looks for: a vector at the end of its path, or a `package.json` that
cannot be read or whose first `scripts` has a hook. -/
def ManifestEntry.Shows (e : ManifestEntry) : Prop :=
  (∃ tail, tail <:+ normalizeSegments e.path ∧ IsVector tail)
    ∨ e.isPackageJson ∧ ∃ content ∈ e.content, ∀ root ∈ CJson.parse content, firstScriptsHook root

end Hooks

end BonsaiChain
