import BonsaiChain.Lib.Paths
import Mathlib.Data.Set.Insert
import Mathlib.Logic.Function.Basic

/-!
# A disk that may lose power

Names that stand for numbered files, and the bytes of the files. Both are buffered: beside what a
program reads there is what a power cut may leave, for a name every file it stood for since its
directory was last synced, for a file its bytes of the last sync and anything behind them.
-/

namespace BonsaiChain.Lib

/-- The bytes of a file, and those a power cut may leave of it. -/
structure FileBytes (β : Type*) where
  now : List β
  kept : Set (List β)

/-- A file that is synced. -/
def FileBytes.settled {β : Type*} (bytes : List β) : FileBytes β := ⟨bytes, {bytes}⟩

structure Disk (Name Ino β : Type*) where
  file : Ino → FileBytes β
  dir : Name → Option Ino
  kept : Name → Set (Option Ino)

/-- What a system call does to the disk. -/
inductive DiskEffect (Name Dir Ino β : Type*) where
  | opened (name : Name) (ino : Ino)
  | create (name : Name) (ino : Ino)
  | append (ino : Ino) (bytes : List β)
  | sync (ino : Ino)
  | rename (source target : Name)
  | unlink (name : Name)
  | syncDir (dir : Dir)
  deriving DecidableEq

variable {Name Dir Ino β : Type*}

namespace DiskEffect

/-- The effect changes the bytes of the file. -/
def Touches (ino : Ino) : DiskEffect Name Dir Ino β → Prop
  | .create _ i | .append i _ | .sync i => i = ino
  | _ => False

/-- The effect changes what the name stands for. -/
def Binds (name : Name) : DiskEffect Name Dir Ino β → Prop
  | .create n _ | .unlink n => n = name
  | .rename source target => source = name ∨ target = name
  | _ => False

end DiskEffect

namespace Disk

open Function

variable [DecidableEq Name] [DecidableEq Ino] (parent : Name → Dir) (d : Disk Name Ino β)

/-- The system only opens what is there, and creates only what is not. -/
def Allows : DiskEffect Name Dir Ino β → Prop
  | .opened name ino => d.dir name = some ino
  | .create name ino => d.dir name = none ∧ ∀ n, some ino ∉ d.kept n
  | .rename source target => source ≠ target ∧ d.dir source ≠ none
  | .unlink name => d.dir name ≠ none
  | _ => True

/-- The disk after an effect. -/
def apply : DiskEffect Name Dir Ino β → Disk Name Ino β
  | .opened _ _ => d
  | .create name ino =>
    { file := update d.file ino ⟨[], Set.univ⟩
      dir := update d.dir name (some ino)
      kept := update d.kept name (insert (some ino) (d.kept name)) }
  | .append ino bytes =>
    { d with
      file := update d.file ino
        ⟨(d.file ino).now ++ bytes, {b | ∃ a ∈ (d.file ino).kept, a <+: b}⟩ }
  | .sync ino => { d with file := update d.file ino (.settled (d.file ino).now) }
  | .rename source target =>
    { d with
      dir := update (update d.dir target (d.dir source)) source none
      kept := update (update d.kept target (insert (d.dir source) (d.kept target))) source
        (insert none (d.kept source)) }
  | .unlink name =>
    { d with
      dir := update d.dir name none
      kept := update d.kept name (insert none (d.kept name)) }
  | .syncDir dir =>
    { d with kept := fun name => {x | x ∈ d.kept name ∧ (parent name = dir → x = d.dir name)} }

/-- What a program reads under a name. -/
def read (name : Name) : Option (List β) := (d.dir name).map fun ino => (d.file ino).now

/-- What can be read under a name after a power cut. -/
def mayHold (name : Name) : Set (Option (List β)) :=
  {o | (o = none ∧ none ∈ d.kept name)
    ∨ ∃ ino bytes, o = some bytes ∧ some ino ∈ d.kept name ∧ bytes ∈ (d.file ino).kept}

/-- A power cut. -/
structure Cut (d d' : Disk Name Ino β) : Prop where
  dir : ∀ name, d'.dir name ∈ d.kept name
  kept : ∀ name, d'.kept name = {d'.dir name}
  bytes : ∀ ino, (d'.file ino).now ∈ (d.file ino).kept
  settled : ∀ ino, d'.file ino = .settled (d'.file ino).now

/-- What a program sees may stay. -/
structure Coherent : Prop where
  dir : ∀ name, d.dir name ∈ d.kept name
  bytes : ∀ ino, (d.file ino).now ∈ (d.file ino).kept

/-- No other name stands for the file of `name`, not even after a power cut. -/
structure Private (name : Name) (ino : Ino) : Prop where
  dir : d.dir name = some ino
  others : ∀ n, n ≠ name → some ino ∉ d.kept n

/-- All the files a name may stand for are synced. -/
def SettledAt (name : Name) : Prop :=
  ∀ ino, some ino ∈ d.kept name → ∃ bytes, d.file ino = .settled bytes

/-- An effect that the system lets happen. -/
def Step (e : DiskEffect Name Dir Ino β) (d' : Disk Name Ino β) : Prop :=
  d.Allows e ∧ d' = d.apply parent e

variable {parent d} {d' : Disk Name Ino β} {name tmp target : Name} {ino i : Ino}
  {bytes text : List β} {e : DiskEffect Name Dir Ino β}

section Frame

theorem file_apply (h : ¬e.Touches ino) : (d.apply parent e).file ino = d.file ino := by
  cases e with
  | create n i | append i bs | sync i => exact update_of_ne (Ne.symm h) _ _
  | opened | rename | unlink | syncDir => rfl

theorem dir_apply (h : ¬e.Binds name) : (d.apply parent e).dir name = d.dir name := by
  cases e with
  | create n i | unlink n => exact update_of_ne (Ne.symm h) _ _
  | rename a b =>
    obtain ⟨ha, hb⟩ := not_or.mp h
    exact (update_of_ne (Ne.symm ha) _ _).trans (update_of_ne (Ne.symm hb) _ _)
  | opened | append | sync | syncDir => rfl

theorem kept_apply (h : ¬e.Binds name) : (d.apply parent e).kept name ⊆ d.kept name := by
  cases e with
  | create n i | unlink n => exact (update_of_ne (Ne.symm h) _ _).subset
  | rename a b =>
    obtain ⟨ha, hb⟩ := not_or.mp h
    exact ((update_of_ne (Ne.symm ha) _ _).trans (update_of_ne (Ne.symm hb) _ _)).subset
  | opened | append | sync => exact subset_rfl
  | syncDir dir => exact fun _ hx => hx.1

/-- What a name may stand for after an effect it stood for before, or the effect bound it. -/
theorem mem_kept_apply (h : some ino ∈ (d.apply parent e).kept name) : some ino ∈ d.kept name
    ∨ e = .create name ino ∨ ∃ source, e = .rename source name ∧ d.dir source = some ino := by
  by_cases hbinds : e.Binds name
  · cases e with
    | create n i =>
      obtain rfl : n = name := hbinds
      simp only [apply, update_self, Set.mem_insert_iff, Option.some.injEq] at h
      rcases h with rfl | h
      · exact .inr (.inl rfl)
      · exact .inl h
    | unlink n =>
      obtain rfl : n = name := hbinds
      simp only [apply, update_self, Set.mem_insert_iff, reduceCtorEq, false_or] at h
      exact .inl h
    | rename a b =>
      rcases eq_or_ne name a with rfl | ha
      · simp only [apply, update_self, Set.mem_insert_iff, reduceCtorEq, false_or] at h
        exact .inl h
      · obtain rfl : b = name := hbinds.resolve_left (Ne.symm ha)
        simp only [apply, update_of_ne ha, update_self, Set.mem_insert_iff] at h
        rcases h with h | h
        · exact .inr (.inr ⟨a, rfl, h.symm⟩)
        · exact .inl h
    | opened | append | sync | syncDir => exact hbinds.elim
  · exact .inl (kept_apply hbinds h)

/-- Two names stay without a common file when no file is renamed from the one to the other. -/
theorem apart_apply {a b : Name} (h : ∀ ino, some ino ∈ d.kept a → some ino ∉ d.kept b)
    (hne : a ≠ b) (hallows : d.Allows e) (ha : ∀ source, e ≠ .rename source a)
    (hb : ∀ source ino, e = .rename source b → d.dir source = some ino → some ino ∉ d.kept a) :
    ∀ ino, some ino ∈ (d.apply parent e).kept a → some ino ∉ (d.apply parent e).kept b := by
  intro ino hmem hmem'
  rcases mem_kept_apply hmem with hold | rfl | ⟨source, rfl, -⟩
  · rcases mem_kept_apply hmem' with hold' | rfl | ⟨source, rfl, hsource⟩
    · exact h ino hold hold'
    · exact hallows.2 a hold
    · exact hb source ino rfl hsource hold
  · rcases mem_kept_apply hmem' with hold' | heq | ⟨source, heq, -⟩
    · exact hallows.2 b hold'
    · exact hne (DiskEffect.create.inj heq).1
    · exact nomatch heq
  · exact ha source rfl

/-- An effect that neither binds the name nor touches a file it may stand for. -/
theorem mayHold_apply (hbinds : ¬e.Binds name)
    (htouches : ∀ ino, some ino ∈ d.kept name → ¬e.Touches ino) :
    (d.apply parent e).mayHold name ⊆ d.mayHold name := by
  rintro o (⟨rfl, h⟩ | ⟨ino, bytes, rfl, h, hbytes⟩)
  · exact .inl ⟨rfl, kept_apply hbinds h⟩
  · have h' := kept_apply hbinds h
    rw [file_apply (htouches ino h')] at hbytes
    exact .inr ⟨ino, bytes, rfl, h', hbytes⟩

theorem read_apply (hd : d.Coherent) (hbinds : ¬e.Binds name)
    (htouches : ∀ ino, some ino ∈ d.kept name → ¬e.Touches ino) :
    (d.apply parent e).read name = d.read name := by
  unfold read
  rw [dir_apply hbinds]
  rcases h : d.dir name with _ | ino
  · rfl
  · rw [Option.map_some, Option.map_some, file_apply (htouches ino (h ▸ hd.dir name))]

theorem settledAt_apply (hd : d.SettledAt name) (hbinds : ¬e.Binds name)
    (htouches : ∀ ino, some ino ∈ d.kept name → ¬e.Touches ino) :
    (d.apply parent e).SettledAt name := by
  intro ino h
  have h' := kept_apply hbinds h
  rw [file_apply (htouches ino h')]
  exact hd ino h'

end Frame

section Coherent

theorem Coherent.apply (hd : d.Coherent) (e : DiskEffect Name Dir Ino β) :
    (d.apply parent e).Coherent := by
  constructor
  · intro name
    cases e with
    | create n i | unlink n =>
      rcases eq_or_ne name n with rfl | hn
      · simp [Disk.apply]
      · simpa [Disk.apply, hn] using hd.dir name
    | rename a b =>
      rcases eq_or_ne name a with rfl | ha
      · simp [Disk.apply]
      · rcases eq_or_ne name b with rfl | hb
        · simp [Disk.apply, ha]
        · simpa [Disk.apply, ha, hb] using hd.dir name
    | opened | append | sync => exact hd.dir name
    | syncDir dir => exact ⟨hd.dir name, fun _ => rfl⟩
  · intro ino
    by_cases htouches : e.Touches ino
    · cases e with
      | create n i =>
        obtain rfl : i = ino := htouches
        simp [Disk.apply]
      | append i bs =>
        obtain rfl : i = ino := htouches
        simp only [Disk.apply, update_self]
        exact ⟨_, hd.bytes i, List.prefix_append _ _⟩
      | sync i =>
        obtain rfl : i = ino := htouches
        simp [Disk.apply, FileBytes.settled]
      | opened | rename | unlink | syncDir => exact htouches.elim
    · rw [file_apply htouches]
      exact hd.bytes ino

omit [DecidableEq Name] [DecidableEq Ino]

theorem Cut.coherent (h : d.Cut d') : d'.Coherent where
  dir name := (h.kept name).symm ▸ Set.mem_singleton _
  bytes ino := by
    rw [h.settled ino]
    exact Set.mem_singleton _

theorem Cut.settledAt (h : d.Cut d') (name : Name) : d'.SettledAt name :=
  fun ino _ => ⟨_, h.settled ino⟩

/-- What is read after a power cut was among what it might leave. -/
theorem Cut.read_mem (h : d.Cut d') (name : Name) : d'.read name ∈ d.mayHold name := by
  have hdir := h.dir name
  unfold Disk.read
  rcases hd' : d'.dir name with _ | ino <;> rw [hd'] at hdir
  · exact .inl ⟨rfl, hdir⟩
  · exact .inr ⟨ino, _, rfl, hdir, h.bytes ino⟩

/-- A name that stands for one synced file holds what is read. -/
theorem mayHold_eq (hkept : d.kept name = {d.dir name}) (hsettled : d.SettledAt name) :
    d.mayHold name = {d.read name} := by
  ext o
  unfold mayHold Disk.read
  rw [hkept]
  rcases hdir : d.dir name with _ | ino
  · simp
  · obtain ⟨bytes, hfile⟩ := hsettled ino (by rw [hkept, hdir]; rfl)
    simp [hfile, FileBytes.settled]

theorem kept_syncDir [DecidableEq Name] [DecidableEq Ino] (hd : d.Coherent) (name : Name) :
    (d.apply parent (.syncDir (parent name))).kept name = {d.dir name} := by
  ext x
  constructor
  · rintro ⟨-, h⟩
    exact h rfl
  · rintro rfl
    exact ⟨hd.dir name, fun _ => rfl⟩

/-- Once its directory is synced, a name that stands for a synced file holds it. -/
theorem mayHold_syncDir [DecidableEq Name] [DecidableEq Ino] (hd : d.Coherent)
    (hdir : d.dir name = some ino) (hfile : d.file ino = .settled text) :
    (d.apply parent (.syncDir (parent name))).mayHold name = {some text} := by
  have hkept : (d.apply parent (.syncDir (parent name))).kept name = _ := kept_syncDir hd name
  rw [mayHold_eq (d := d.apply parent (.syncDir (parent name))) hkept]
  · simp [Disk.read, Disk.apply, hdir, hfile, FileBytes.settled]
  · intro i hi
    rw [hkept, hdir] at hi
    obtain rfl := Option.some.inj hi
    exact ⟨text, hfile⟩

theorem Cut.mayHold (h : d.Cut d') (name : Name) : d'.mayHold name = {d'.read name} :=
  mayHold_eq (h.kept name) (h.settledAt name)

end Coherent

/-- A system that carries out one effect after another. -/
theorem Step.cons {es : List (DiskEffect Name Dir Ino β)} (h : d.Allows e)
    (h' : Path (Step parent) (d.apply parent e) es d') : Path (Step parent) d (e :: es) d' :=
  (Path.single ⟨h, rfl⟩ : Path (Step parent) d [e] _).append h'

section Private

variable {n : Name}

omit [DecidableEq Name] [DecidableEq Ino] in
theorem Private.ne (h : d.Private tmp ino) (hd : d.Coherent) (hn : n ≠ tmp)
    (hdir : d.dir n = some i) : i ≠ ino := by
  rintro rfl
  exact h.others n hn (hdir ▸ hd.dir n)

/-- A private file stays so while other names are bound. -/
theorem Private.apply (h : d.Private tmp ino) (hd : d.Coherent) (hallows : d.Allows e)
    (hbinds : ¬e.Binds tmp) : (d.apply parent e).Private tmp ino := by
  refine ⟨(dir_apply hbinds).trans h.dir, fun n hn hmem => ?_⟩
  rcases mem_kept_apply hmem with hmem | rfl | ⟨source, rfl, hsource⟩
  · exact h.others n hn hmem
  · exact hallows.2 tmp (h.dir ▸ hd.dir tmp)
  · rcases eq_or_ne source tmp with rfl | hne
    · exact hbinds (.inl rfl)
    · exact h.ne hd hne hsource rfl

end Private

end Disk

end BonsaiChain.Lib
