import BonsaiChain.Lib.CrashDisk

/-!
# Writing behind a file

Programs that open a file or create it, write a line behind it, sync it and sync the directory. The
lines of those that came through stand in the file whole and in order after any power cut, with the
pieces between them that stopped programs have left.
-/

namespace BonsaiChain.Lib

variable {Name Dir Ino β : Type*}

/-- How far a program is that writes a line behind a file. -/
inductive LogStage (Ino β : Type*) where
  | closed
  | writing (ino : Ino) (bytes : List β)
  | synced (ino : Ino)
  | settled

/-- What a program that writes `line` behind the file `log` does, and how far it gets. -/
inductive WritesLine (parent : Name → Dir) (log : Name) (line : List β) : LogStage Ino β →
    DiskEffect Name Dir Ino β → LogStage Ino β → Prop
  | opened (ino : Ino) : WritesLine parent log line .closed (.opened log ino) (.writing ino [])
  | create (ino : Ino) : WritesLine parent log line .closed (.create log ino) (.writing ino [])
  | append (ino : Ino) (bytes more : List β) :
    WritesLine parent log line (.writing ino bytes) (.append ino more)
      (.writing ino (bytes ++ more))
  | sync (ino : Ino) : WritesLine parent log line (.writing ino line) (.sync ino) (.synced ino)
  | settle (ino : Ino) :
    WritesLine parent log line (.synced ino) (.syncDir (parent log)) .settled

/-- The file that is open. -/
def LogStage.file : LogStage Ino β → Option Ino
  | writing ino _ | synced ino => some ino
  | closed | settled => none

section Spares

variable {parent : Name → Dir} {log name : Name} {line : List β} {d : Disk Name Ino β}
  {s s' : LogStage Ino β} {e : DiskEffect Name Dir Ino β} {ino : Ino}
  (hs : WritesLine parent log line s e s') (hallows : d.Allows e) (hd : d.Coherent)
  (hopen : ∀ ino ∈ s.file, d.dir log = some ino)
include hs hallows hd hopen

/-- A program that writes behind a file spares the names that have no file in common with it. -/
theorem WritesLine.spares (hname : name ≠ log)
    (hapart : ∀ ino, some ino ∈ d.kept log → some ino ∉ d.kept name) :
    ¬e.Binds name ∧ ∀ ino, some ino ∈ d.kept name → ¬e.Touches ino := by
  cases hs with
  | opened | settle => exact ⟨not_false, fun _ _ => not_false⟩
  | create i =>
    refine ⟨hname.symm, fun j hj heq => ?_⟩
    obtain rfl : i = j := heq
    exact hallows.2 name hj
  | append i | sync i =>
    refine ⟨not_false, fun j hj heq => ?_⟩
    obtain rfl : i = j := heq
    exact hapart i (hopen i rfl ▸ hd.dir log) hj

theorem WritesLine.leaves (hname : name ≠ log) (hp : d.Private name ino) :
    ¬e.Binds name ∧ ¬e.Touches ino := by
  cases hs with
  | opened | settle => exact ⟨not_false, not_false⟩
  | create i =>
    refine ⟨hname.symm, fun heq => ?_⟩
    obtain rfl : i = ino := heq
    exact hallows.2 name (hp.dir ▸ hd.dir name)
  | append i | sync i => exact ⟨not_false, hp.ne hd hname.symm (hopen i rfl)⟩

variable [DecidableEq Name] [DecidableEq Ino]

omit hd in
/-- The open file stays the file of its name. -/
theorem WritesLine.file_open : ∀ ino ∈ s'.file, (d.apply parent e).dir log = some ino := by
  cases hs with
  | opened i =>
    rintro _ ⟨⟩
    exact hallows
  | create i =>
    rintro _ ⟨⟩
    simp [Disk.apply]
  | append i | sync i =>
    rintro _ ⟨⟩
    exact hopen i rfl
  | settle => rintro _ ⟨⟩

end Spares

section Lines

/-- The lines stand in the text, whole and in their order. -/
def HoldsLines : List (List β) → List β → Prop
  | [], _ => True
  | line :: lines, text => ∃ before after, text = before ++ line ++ after ∧ HoldsLines lines after

theorem HoldsLines.append : ∀ {lines : List (List β)} {text : List β}, HoldsLines lines text →
    ∀ more, HoldsLines lines (text ++ more)
  | [], _, _, _ => trivial
  | line :: lines, text, ⟨before, after, heq, h⟩, more =>
    ⟨before, after ++ more, by simp [heq], h.append more⟩

theorem HoldsLines.snoc {line : List β} : ∀ {lines : List (List β)} {text : List β},
    HoldsLines lines text → HoldsLines (lines ++ [line]) (text ++ line)
  | [], text, _ => ⟨text, [], by simp, trivial⟩
  | _ :: _, _, ⟨before, after, heq, h⟩ => ⟨before, after ++ line, by simp [heq], h.snoc⟩

variable (log : Name) (lines : List (List β))

/-- The lines are in the file `log` whatever happens. -/
def Disk.KeepsLines (d : Disk Name Ino β) : Prop :=
  lines = [] ∨ ∃ ino, d.kept log = {some ino} ∧ ∀ text ∈ (d.file ino).kept, HoldsLines lines text

/-- What a program knows that writes `line` behind `log` alone. -/
def LogStage.Holds (line : List β) (d : Disk Name Ino β) : LogStage Ino β → Prop
  | closed => True
  | writing ino bytes => d.dir log = some ino
      ∧ ∃ base, (d.file ino).now = base ++ bytes ∧ HoldsLines lines base
  | synced ino => d.dir log = some ino
      ∧ ∃ text, d.file ino = .settled text ∧ HoldsLines (lines ++ [line]) text
  | settled => d.KeepsLines log (lines ++ [line])

variable {log lines} [DecidableEq Name] [DecidableEq Ino] {parent : Name → Dir} {line : List β}
  {d d' : Disk Name Ino β} {s s' : LogStage Ino β} {es : List (DiskEffect Name Dir Ino β)}
  {e : DiskEffect Name Dir Ino β}

omit [DecidableEq Name] [DecidableEq Ino] in
/-- The file that is open carries the lines. -/
theorem Disk.KeepsLines.now (h : d.KeepsLines log lines) (hd : d.Coherent) {ino : Ino}
    (hdir : d.dir log = some ino) : HoldsLines lines (d.file ino).now := by
  rcases h with rfl | ⟨i, hkept, hcarries⟩
  · trivial
  · have hmem := hd.dir log
    rw [hdir, hkept] at hmem
    obtain rfl := Option.some.inj hmem
    exact hcarries _ (hd.bytes ino)

omit [DecidableEq Name] [DecidableEq Ino] in
theorem Disk.KeepsLines.dir (h : d.KeepsLines log lines) (hd : d.Coherent) (hne : lines ≠ []) :
    ∃ ino, d.dir log = some ino ∧ d.kept log = {some ino}
      ∧ ∀ text ∈ (d.file ino).kept, HoldsLines lines text := by
  obtain ⟨ino, hkept, hcarries⟩ := h.resolve_left hne
  have hmem := hd.dir log
  rw [hkept] at hmem
  exact ⟨ino, hmem, hkept, hcarries⟩

omit [DecidableEq Name] [DecidableEq Ino] in
/-- Whatever a power cut leaves carries the lines. -/
theorem Disk.KeepsLines.mayHold (h : d.KeepsLines log lines) (hne : lines ≠ []) :
    ∀ o ∈ d.mayHold log, ∃ text, o = some text ∧ HoldsLines lines text := by
  obtain ⟨ino, hkept, hcarries⟩ := h.resolve_left hne
  rintro o (⟨-, hmem⟩ | ⟨i, text, rfl, hmem, htext⟩) <;> rw [hkept] at hmem
  · exact nomatch hmem
  · obtain rfl := Option.some.inj hmem
    exact ⟨text, rfl, hcarries text htext⟩

/-- The lines stay as long as the name is not bound anew; the file may grow. -/
theorem Disk.KeepsLines.apply (h : d.KeepsLines log lines) (hd : d.Coherent)
    (hallows : d.Allows e) (hbinds : e.Binds log → ∃ ino, e = .create log ino) :
    (d.apply parent e).KeepsLines log lines := by
  rcases eq_or_ne lines [] with rfl | hne
  · exact .inl rfl
  · obtain ⟨ino, hdir, hkept, hcarries⟩ := h.dir hd hne
    have hfree : ¬e.Binds log := fun hb => by
      obtain ⟨i, rfl⟩ := hbinds hb
      exact absurd (hallows.1.symm.trans hdir) nofun
    have hdir' : some ino ∈ (d.apply parent e).kept log := by
      have hsame : (d.apply parent e).dir log = d.dir log := Disk.dir_apply hfree
      rw [← hdir, ← hsame]
      exact (hd.apply e).dir log
    refine .inr ⟨ino, Set.Subset.antisymm (hkept ▸ Disk.kept_apply hfree)
      (Set.singleton_subset_iff.mpr hdir'), ?_⟩
    by_cases htouches : e.Touches ino
    · cases e with
      | create n i =>
        obtain rfl : i = ino := htouches
        exact absurd (hkept ▸ Set.mem_singleton _) (hallows.2 log)
      | append i more =>
        obtain rfl : i = ino := htouches
        simp only [Disk.apply, Function.update_self, Set.mem_ofPred_eq, forall_exists_index,
          and_imp]
        rintro text a ha ⟨rest, rfl⟩
        exact (hcarries a ha).append rest
      | sync i =>
        obtain rfl : i = ino := htouches
        simp only [Disk.apply, Function.update_self]
        rintro text rfl
        exact hcarries _ (hd.bytes i)
      | opened | rename | unlink | syncDir => exact htouches.elim
    · rwa [Disk.file_apply htouches]

theorem WritesLine.keepsLines (hs : WritesLine parent log line s e s') (hd : d.Coherent)
    (hallows : d.Allows e) (h : d.KeepsLines log lines) :
    (d.apply parent e).KeepsLines log lines := by
  refine h.apply hd hallows fun hb => ?_
  cases hs with
  | create ino => exact ⟨ino, rfl⟩
  | opened | append | sync | settle => exact hb.elim

theorem WritesLine.holds (hs : WritesLine parent log line s e s') (hd : d.Coherent)
    (hallows : d.Allows e) (h : d.KeepsLines log lines) (hholds : s.Holds log lines line d) :
    s'.Holds log lines line (d.apply parent e) := by
  cases hs with
  | opened ino => exact ⟨hallows, _, (List.append_nil _).symm, h.now hd hallows⟩
  | create ino =>
    have hlines : lines = [] := by
      by_contra hne
      obtain ⟨i, hdir, -⟩ := h.dir hd hne
      exact absurd (hallows.1.symm.trans hdir) nofun
    subst hlines
    exact ⟨by simp [Disk.apply], [], by simp [Disk.apply], trivial⟩
  | append ino bytes more =>
    obtain ⟨hdir, base, hnow, hcarries⟩ := hholds
    exact ⟨hdir, base, by simp [Disk.apply, hnow], hcarries⟩
  | sync ino =>
    obtain ⟨hdir, base, hnow, hcarries⟩ := hholds
    exact ⟨hdir, base ++ line, by simp [Disk.apply, hnow], hcarries.snoc⟩
  | settle ino =>
    obtain ⟨hdir, text, hfile, hcarries⟩ := hholds
    refine .inr ⟨ino, (Disk.kept_syncDir hd log).trans (by rw [hdir]), fun text' htext => ?_⟩
    have hmem : text' ∈ (d.file ino).kept := htext
    rw [hfile] at hmem
    obtain rfl : text' = text := hmem
    exact hcarries

/-- A program that writes a line alone, wherever it is stopped. -/
theorem WritesLine.alone (hpath : Path (WritesLine parent log line) .closed es s)
    (hdisk : Path (Disk.Step parent) d es d') (hd : d.Coherent) (hlines : d.KeepsLines log lines) :
    d'.Coherent ∧ d'.KeepsLines log lines ∧ s.Holds log lines line d' := by
  induction hpath generalizing d' with
  | nil =>
    obtain rfl := hdisk.eq_of_nil
    exact ⟨hd, hlines, trivial⟩
  | snoc hpath hs ih =>
    obtain ⟨d₁, hbefore, hallows, rfl⟩ := Path.snoc_iff.mp hdisk
    obtain ⟨hd₁, hlines₁, hholds⟩ := ih hbefore
    exact ⟨hd₁.apply _, hs.keepsLines hd₁ hallows hlines₁, hs.holds hd₁ hallows hlines₁ hholds⟩

omit [DecidableEq Name] [DecidableEq Ino] in
theorem Disk.Cut.keepsLines (h : d.Cut d') (hlines : d.KeepsLines log lines) :
    d'.KeepsLines log lines := by
  rcases hlines with rfl | ⟨ino, hkept, hcarries⟩
  · exact .inl rfl
  · have hdir := h.dir log
    rw [hkept] at hdir
    refine .inr ⟨ino, (h.kept log).trans (by rw [Set.mem_singleton_iff.mp hdir]), ?_⟩
    rw [h.settled ino]
    rintro text rfl
    exact hcarries _ (h.bytes ino)

end Lines

end BonsaiChain.Lib
