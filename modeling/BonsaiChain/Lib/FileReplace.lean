import BonsaiChain.Lib.CrashDisk

/-!
# Replacing a file

Programs that write a temporary file, sync it, rename it over their target and sync the directory.
Alone, wherever one is stopped, a power cut leaves what the target may have held before or the whole
text, and the text once the program is through. Several may run at a time: with different temporary
files they leave each other's alone.
-/

namespace BonsaiChain.Lib

variable {Name Dir Ino β : Type*}

/-- How far a program is that replaces a file: it has not begun, it writes a temporary file, it has
synced that, it has renamed it, it has synced the directory, or it has given up. -/
inductive ReplaceStage (Name Ino β : Type*) where
  | idle
  | writing (tmp : Name) (ino : Ino) (bytes : List β)
  | synced (tmp : Name) (ino : Ino)
  | renamed
  | settled
  | dropped

/-- What a program that replaces `target` by `text` does, and how far it gets. -/
inductive Replaces (parent : Name → Dir) (temporary : Name → Prop) (target : Name)
    (text : List β) : ReplaceStage Name Ino β → DiskEffect Name Dir Ino β →
    ReplaceStage Name Ino β → Prop
  | create (tmp : Name) (ino : Ino) (htmp : temporary tmp) :
    Replaces parent temporary target text .idle (.create tmp ino) (.writing tmp ino [])
  | append (tmp : Name) (ino : Ino) (bytes more : List β) :
    Replaces parent temporary target text (.writing tmp ino bytes) (.append ino more)
      (.writing tmp ino (bytes ++ more))
  | sync (tmp : Name) (ino : Ino) :
    Replaces parent temporary target text (.writing tmp ino text) (.sync ino) (.synced tmp ino)
  | unlink (tmp : Name) (ino : Ino) (bytes : List β) :
    Replaces parent temporary target text (.writing tmp ino bytes) (.unlink tmp) .dropped
  | unlinkSynced (tmp : Name) (ino : Ino) :
    Replaces parent temporary target text (.synced tmp ino) (.unlink tmp) .dropped
  | rename (tmp : Name) (ino : Ino) :
    Replaces parent temporary target text (.synced tmp ino) (.rename tmp target) .renamed
  | settle : Replaces parent temporary target text .renamed (.syncDir (parent target)) .settled

namespace ReplaceStage

/-- The temporary file of a program. -/
def owned : ReplaceStage Name Ino β → Option (Name × Ino)
  | writing tmp ino _ | synced tmp ino => some (tmp, ino)
  | _ => none

variable (temporary : Name → Prop) (text : List β)

/-- What a program may rely on at a stage. -/
def Holds (d : Disk Name Ino β) : ReplaceStage Name Ino β → Prop
  | writing tmp ino bytes => temporary tmp ∧ d.Private tmp ino ∧ (d.file ino).now = bytes
  | synced tmp ino => temporary tmp ∧ d.Private tmp ino ∧ d.file ino = .settled text
  | _ => True

variable {temporary text} [DecidableEq Name] [DecidableEq Ino] {parent : Name → Dir}
  {d : Disk Name Ino β} {s s' : ReplaceStage Name Ino β} {e : DiskEffect Name Dir Ino β}
  {target tmp : Name} {ino : Ino}

omit [DecidableEq Name] [DecidableEq Ino] in
theorem Holds.owned (h : s.Holds temporary text d) (hs : s.owned = some (tmp, ino)) :
    temporary tmp ∧ d.Private tmp ino := by
  cases s with
  | writing | synced =>
    obtain ⟨rfl, rfl⟩ := Prod.mk.inj (Option.some.inj hs)
    exact ⟨h.1, h.2.1⟩
  | idle | renamed | settled | dropped => exact nomatch hs

/-- A program keeps what others rely on as long as it leaves their temporary files alone. -/
theorem Holds.frame (h : s.Holds temporary text d) (hd : d.Coherent) (hallows : d.Allows e)
    (hframe : ∀ tmp ino, s.owned = some (tmp, ino) → ¬e.Binds tmp ∧ ¬e.Touches ino) :
    s.Holds temporary text (d.apply parent e) := by
  cases s with
  | writing tmp ino bytes | synced tmp ino =>
    obtain ⟨htmp, hp, hfile⟩ := h
    obtain ⟨hbinds, htouches⟩ := hframe tmp ino rfl
    exact ⟨htmp, hp.apply hd hallows hbinds, by rwa [Disk.file_apply htouches]⟩
  | idle | renamed | settled | dropped => trivial

/-- The next stage of the program itself. -/
theorem Holds.step (h : s.Holds temporary text d) (hd : d.Coherent) (hallows : d.Allows e)
    (hs : Replaces parent temporary target text s e s') :
    s'.Holds temporary text (d.apply parent e) := by
  cases hs with
  | create tmp ino htmp =>
    refine ⟨htmp, ⟨by simp [Disk.apply], fun n hn => ?_⟩, by simp [Disk.apply]⟩
    simp only [Disk.apply, Function.update_of_ne hn]
    exact hallows.2 n
  | append tmp ino bytes more =>
    obtain ⟨htmp, hp, rfl⟩ := h
    exact ⟨htmp, hp.apply hd hallows not_false, by simp [Disk.apply]⟩
  | sync tmp ino =>
    obtain ⟨htmp, hp, rfl⟩ := h
    exact ⟨htmp, hp.apply hd hallows not_false, by simp [Disk.apply]⟩
  | unlink | unlinkSynced | rename | settle => trivial

omit [DecidableEq Name] [DecidableEq Ino] in
/-- Two programs with different temporary files leave each other's alone. -/
theorem Holds.apart {t : ReplaceStage Name Ino β} {text' : List β}
    (h : s.Holds temporary text d) (ht : t.Holds temporary text' d) (hd : d.Coherent)
    (hallows : d.Allows e) (hs : Replaces parent temporary target text s e s')
    (htarget : ¬temporary target)
    (hne : ∀ a i b j, s.owned = some (a, i) → t.owned = some (b, j) → a ≠ b) :
    ∀ tmp ino, t.owned = some (tmp, ino) → ¬e.Binds tmp ∧ ¬e.Touches ino := by
  intro tmp ino howned
  obtain ⟨htmp, hp⟩ := ht.owned howned
  cases hs with
  | create a i =>
    refine ⟨fun heq => ?_, fun heq => ?_⟩
    · obtain rfl : a = tmp := heq
      exact absurd (hallows.1.symm.trans hp.dir) nofun
    · obtain rfl : i = ino := heq
      exact hallows.2 tmp (hp.dir ▸ hd.dir tmp)
  | append a i | sync a i =>
    exact ⟨not_false, hp.ne hd (hne a i tmp ino rfl howned) h.2.1.dir⟩
  | unlink a i | unlinkSynced a i => exact ⟨hne a i tmp ino rfl howned, not_false⟩
  | rename a i =>
    refine ⟨not_or.mpr ⟨hne a i tmp ino rfl howned, fun heq => ?_⟩, not_false⟩
    exact htarget (heq ▸ htmp)
  | settle => exact ⟨not_false, not_false⟩

omit [DecidableEq Name] [DecidableEq Ino] in
/-- A program neither binds a name that is not a temporary one nor touches a file the name may stand
for, except where it renames to it. -/
theorem Holds.spares {name : Name} (h : s.Holds temporary text d) (hallows : d.Allows e)
    (hs : Replaces parent temporary target text s e s') (hname : ¬temporary name)
    (hs' : name ≠ target ∨ s' ≠ .renamed) :
    ¬e.Binds name ∧ ∀ ino, some ino ∈ d.kept name → ¬e.Touches ino := by
  have hne : ∀ {tmp}, temporary tmp → name ≠ tmp := fun htmp heq => hname (heq ▸ htmp)
  cases hs with
  | create tmp ino htmp =>
    refine ⟨(hne htmp).symm, fun i hi heq => ?_⟩
    obtain rfl : ino = i := heq
    exact hallows.2 name hi
  | append tmp ino | sync tmp ino =>
    refine ⟨not_false, fun i hi heq => ?_⟩
    obtain rfl : ino = i := heq
    exact h.2.1.others name (hne h.1) hi
  | unlink tmp ino | unlinkSynced tmp ino => exact ⟨(hne h.1).symm, fun _ _ => not_false⟩
  | rename tmp ino =>
    have htarget : name ≠ target := hs'.resolve_right (fun h => h rfl)
    exact ⟨not_or.mpr ⟨(hne h.1).symm, htarget.symm⟩, fun _ _ => not_false⟩
  | settle => exact ⟨not_false, fun _ _ => not_false⟩

section Rename

variable (h : (synced tmp ino).Holds temporary text d) (htarget : ¬temporary target)
include h htarget

theorem Holds.rename_dir : (d.apply parent (.rename tmp target)).dir target = some ino := by
  have hne : target ≠ tmp := fun heq => htarget (heq ▸ h.1)
  simp [Disk.apply, hne, h.2.1.dir]

theorem Holds.rename_kept {x : Option Ino}
    (hx : x ∈ (d.apply parent (.rename tmp target)).kept target) :
    x = some ino ∨ x ∈ d.kept target := by
  have hne : target ≠ tmp := fun heq => htarget (heq ▸ h.1)
  simpa [Disk.apply, hne, h.2.1.dir] using hx

theorem Holds.rename_read :
    (d.apply parent (.rename tmp target)).read target = some text := by
  unfold Disk.read
  rw [h.rename_dir htarget, Option.map_some]
  show some (d.file ino).now = some text
  rw [h.2.2]
  rfl

/-- After a rename the target may hold the text, or what it may have held before. -/
theorem Holds.rename_mayHold : (d.apply parent (.rename tmp target)).mayHold target
    ⊆ insert (some text) (d.mayHold target) := by
  rintro o (⟨rfl, hmem⟩ | ⟨i, bytes, rfl, hmem, hbytes⟩)
  · rcases h.rename_kept htarget hmem with hi | hmem
    · exact nomatch hi
    · exact .inr (.inl ⟨rfl, hmem⟩)
  · rcases h.rename_kept htarget hmem with hi | hmem
    · obtain rfl := Option.some.inj hi
      have hbytes' : bytes ∈ (d.file i).kept := hbytes
      rw [h.2.2] at hbytes'
      exact .inl (congrArg some hbytes')
    · exact .inr (.inr ⟨i, bytes, rfl, hmem, hbytes⟩)

theorem Holds.rename_settledAt (hsettled : d.SettledAt target) :
    (d.apply parent (.rename tmp target)).SettledAt target := by
  intro i hmem
  rcases h.rename_kept htarget hmem with hi | hmem
  · obtain rfl := Option.some.inj hi
    exact ⟨text, h.2.2⟩
  · exact hsettled i hmem

end Rename

end ReplaceStage

section Alone

variable [DecidableEq Name] [DecidableEq Ino] {parent : Name → Dir} {temporary : Name → Prop}
  {target : Name} {text : List β} {d d' : Disk Name Ino β} {s : ReplaceStage Name Ino β}
  {es : List (DiskEffect Name Dir Ino β)}

/-- What the target may hold after a power cut while one program replaces it. -/
def ReplaceStage.Alone (target : Name) (text : List β) (old : Set (Option (List β)))
    (d : Disk Name Ino β) : ReplaceStage Name Ino β → Prop
  | renamed => d.mayHold target ⊆ insert (some text) old
      ∧ ∃ ino, d.dir target = some ino ∧ d.file ino = .settled text
  | settled => d.mayHold target = {some text}
  | _ => d.mayHold target ⊆ old

omit [DecidableEq Name] [DecidableEq Ino] in
theorem ReplaceStage.Alone.subset {old : Set (Option (List β))} (h : s.Alone target text old d) :
    d.mayHold target ⊆ insert (some text) old := by
  cases s with
  | renamed => exact h.1
  | settled => exact h.trans_subset (Set.singleton_subset_iff.mpr (Set.mem_insert _ _))
  | idle | writing | synced | dropped => exact h.trans (Set.subset_insert _ _)

/-- A program that replaces the target alone, wherever it is stopped. -/
theorem Replaces.alone (hpath : Path (Replaces parent temporary target text) .idle es s)
    (hdisk : Path (Disk.Step parent) d es d') (hd : d.Coherent) (htarget : ¬temporary target) :
    d'.Coherent ∧ s.Holds temporary text d' ∧ s.Alone target text (d.mayHold target) d'
      ∧ ∀ name, ¬temporary name → name ≠ target → d'.mayHold name ⊆ d.mayHold name := by
  induction hpath generalizing d' with
  | nil =>
    obtain rfl := hdisk.eq_of_nil
    exact ⟨hd, trivial, subset_rfl, fun _ _ _ => subset_rfl⟩
  | @snoc es e s s' hpath hs ih =>
    obtain ⟨d₁, hbefore, hallows, rfl⟩ := Path.snoc_iff.mp hdisk
    obtain ⟨hd₁, hholds, halone, hothers⟩ := ih hbefore
    refine ⟨hd₁.apply e, hholds.step hd₁ hallows hs, ?_, fun name hname hne => ?_⟩
    · have hspares := hholds.spares hallows hs htarget
      cases hs with
      | rename tmp ino =>
        exact ⟨(hholds.rename_mayHold htarget).trans (Set.insert_subset_insert halone), ino,
          hholds.rename_dir htarget, hholds.2.2⟩
      | settle =>
        obtain ⟨-, ino, hdir, hfile⟩ := halone
        exact Disk.mayHold_syncDir hd₁ hdir hfile
      | create | append | sync | unlink | unlinkSynced =>
        obtain ⟨hbinds, htouches⟩ := hspares (.inr nofun)
        exact (Disk.mayHold_apply hbinds htouches).trans halone
    · obtain ⟨hbinds, htouches⟩ := hholds.spares hallows hs hname (.inl hne)
      exact (Disk.mayHold_apply hbinds htouches).trans (hothers name hname hne)

end Alone

end BonsaiChain.Lib
