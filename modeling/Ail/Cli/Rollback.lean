import Ail.Cli.Steps

/-!
# What a rollback restores

`ail rollback --to` with an id nobody saved does not fail: it saves an
empty graph. `ail rollback` with a change goes back to the last snapshot
of the index that the change did not make, on whatever branch it lies,
not to the parent of the head.

A new head is read by its id, and that id is made from the command's
argument, so an older snapshot saved by the same command can be read in
its place. `rollback_restores_iff` has these three and no other cases.
-/

namespace Ail.Cli

open Ail.Core Storage Lib List Store

variable {Oid : Type} [DecidableEq Oid] (svc : Services Oid)

/-- The command succeeds, and the head of the current branch, however
the directory is listed when it is read, has the graph root. -/
def Restores (store : Store Oid) (input : Moment × Command) (root : Oid) : Prop :=
  (∃ save, (step svc store input).2 = .saved save) ∧
    ∀ later, ∃ head, (step svc store input).1.headSnapshot later = some head ∧
      head.graphRootHash = root

/-- A snapshot of the id is stored. -/
def Stored (store : Store Oid) (id : Oid) : Prop := ∃ snapshot ∈ store.snapshots, snapshot.id = id

instance (store : Store Oid) (id : Oid) : Decidable (Stored store id) :=
  inferInstanceAs (Decidable (∃ snapshot ∈ store.snapshots, _))

/-- Rollback to a snapshot: it succeeds on the stored ones, and then
brings back the root. -/
structure RollsBackTo (store : Store Oid) (moment : Moment) (text : String) (id : Oid) : Prop where
  succeeds : (∃ save, (step svc store (moment, .rollback (some text) none)).2 = .saved save) ↔
    Stored store id
  restores : ∀ target, store.findSnapshot moment id = some target →
    Restores svc store (moment, .rollback (some text) none) target.graphRootHash
  otherwise : ¬ Stored store id →
    Untouched store (step svc store (moment, .rollback (some text) none)).1

/-- Rollback of the change that made the head: it brings back the root
of the head's parent. -/
def RollsBackChange (store : Store Oid) (moment : Moment) (text : String) (change : Oid) : Prop :=
  ∀ head parentId parent, store.headSnapshot moment = some head →
    head.appliedChangeId = some change → head.parentId = some parentId →
    store.findSnapshot moment parentId = some parent →
    Restores svc store (moment, .rollback none (some text)) parent.graphRootHash

/-! ## When they do -/

/-- Every snapshot saved under the label has the root. -/
def LabelKeeps (store : Store Oid) (label : String) (root : Oid) : Prop :=
  ∀ snapshot ∈ store.snapshots, snapshot.id = svc.ids.label label → snapshot.graphRootHash = root

instance (store : Store Oid) (label : String) (root : Oid) :
    Decidable (LabelKeeps svc store label root) :=
  inferInstanceAs (Decidable (∀ snapshot ∈ store.snapshots, _))

/-- The last snapshot the change did not make has the root, or the first
of all if the change made them all. -/
def LastWithout (snapshots : List (SnapshotEnvelope Oid)) (change root : Oid) : Prop :=
  ∃ before target after, snapshots = before ++ target :: after ∧ target.graphRootHash = root ∧
    (∀ snapshot ∈ after, snapshot.appliedChangeId = some change) ∧
    (target.appliedChangeId ≠ some change ∨ before = [])

/-- The snapshot is stored if and only if all of the index is, and the
label was used for its root only. -/
structure CanRollBackTo (store : Store Oid) (moment : Moment) (text : String) (id : Oid) :
    Prop where
  intact : (∀ entry ∈ store.index, Stored store entry.id) ↔ Stored store id
  label : ∀ target, store.findSnapshot moment id = some target →
    LabelKeeps svc store (rollbackToLabel text) target.graphRootHash

/-- The index lists nothing after the parent's root but what the change
made, and the label was used for that root only. -/
def CanRollBackChange (store : Store Oid) (moment : Moment) (text : String) (change : Oid) : Prop :=
  ∀ head parentId parent, store.headSnapshot moment = some head →
    head.appliedChangeId = some change → head.parentId = some parentId →
    store.findSnapshot moment parentId = some parent →
    (∃ snapshots, store.listSnapshots moment = .ok snapshots ∧
      LastWithout snapshots change parent.graphRootHash) ∧
    LabelKeeps svc store (rollbackChangeLabel text) parent.graphRootHash

/-! ## Reading the head -/

variable {store : Store Oid}

theorem stored_iff (moment : Moment) {id : Oid} :
    Stored store id ↔ ∃ found, store.findSnapshot moment id = some found := by
  constructor
  · rintro ⟨snapshot, hmem, rfl⟩
    exact exists_findSnapshot moment hmem
  · rintro ⟨found, hfound⟩
    obtain ⟨hmem, hid⟩ := findSnapshot_eq_some hfound
    exact ⟨found, hmem, hid⟩

theorem listSnapshots_isOk_iff (moment : Moment) :
    (∃ snapshots, store.listSnapshots moment = .ok snapshots) ↔
      ∀ entry ∈ store.index, Stored store entry.id := by
  simp only [listSnapshots_eq_ok_iff, stored_iff moment]
  induction store.index with
  | nil => simp
  | cons entry index ih =>
    rw [forall_mem_cons, ← ih]
    constructor
    · rintro ⟨_, hall⟩
      cases hall with
      | cons hentry hrest => exact ⟨⟨_, hentry⟩, _, hrest⟩
    · rintro ⟨⟨found, hentry⟩, snapshots, hrest⟩
      exact ⟨found :: snapshots, .cons hentry hrest⟩

/-- Any snapshot of an id is the one read in some listing. -/
theorem exists_moment_findSnapshot {snapshot : SnapshotEnvelope Oid}
    (hmem : snapshot ∈ store.snapshots) :
    ∃ later : Moment, store.findSnapshot later snapshot.id = some snapshot := by
  obtain ⟨before, after, hsplit⟩ := append_of_mem (mem_snapshots.1 hmem)
  -- the listing that begins with the snapshot's file
  refine ⟨⟨0, 0, fun files => files.rotate before.length, fun files => rotate_perm files _⟩, ?_⟩
  simp only [findSnapshot, hsplit]
  simp [asSnapshot]

variable {svc} {root : Oid}

/-- After a save on the current branch the head is any snapshot of the
saved id. -/
theorem restores_iff (hinj : Function.Injective svc.ids.hash) {input : Moment × Command}
    {save : Save Oid} (hstep : step svc store input = (save.commit svc store, .saved save))
    (hbranch : save.branch = store.head.name) :
    Restores svc store input root ↔ save.envelope.graphRootHash = root ∧
      ∀ snapshot ∈ store.snapshots, snapshot.id = save.envelope.id →
        snapshot.graphRootHash = root := by
  have hhead : ∀ later, (save.commit svc store).headSnapshot later =
      (save.commit svc store).findSnapshot later save.envelope.id := by
    intro later
    have hname : (save.commit svc store).head = store.head := by
      unfold Save.commit
      cases save.graph <;>
        simp [saveSnapshotOnBranch, updateSnapshotIndex, writeObjectRef]
    simp [headSnapshot, tipSnapshot, readBranchRef, hname, hbranch]
  have hmem := @Save.mem_snapshots_commit Oid _ svc store save hinj
  rw [Restores, hstep]
  constructor
  · rintro ⟨-, hroot⟩
    have hall : ∀ snapshot ∈ (save.commit svc store).snapshots,
        snapshot.id = save.envelope.id → snapshot.graphRootHash = root := by
      intro snapshot hsnapshot hid
      obtain ⟨later, hlater⟩ := exists_moment_findSnapshot hsnapshot
      obtain ⟨head, hfound, hsame⟩ := hroot later
      rw [hhead, ← hid, hlater] at hfound
      rw [Option.some.inj hfound, hsame]
    exact ⟨hall _ (hmem.2 (.inr rfl)) rfl, fun snapshot hold =>
      hall snapshot (hmem.2 (.inl hold))⟩
  · rintro ⟨hsaved, hold⟩
    refine ⟨⟨save, rfl⟩, fun later => ?_⟩
    obtain ⟨head, hfound⟩ := exists_findSnapshot later (hmem.2 (.inr rfl))
    refine ⟨head, (hhead later).trans hfound, ?_⟩
    obtain ⟨hin, hid⟩ := findSnapshot_eq_some hfound
    rcases hmem.1 hin with hin | rfl
    · exact hold head hin hid
    · exact hsaved

/-! ## The two rollbacks -/

variable {snapshots : List (SnapshotEnvelope Oid)}

theorem rollbackTarget_root_iff {change : Oid} :
    (∃ target, rollbackTarget snapshots change = some target ∧ target.graphRootHash = root) ↔
      LastWithout snapshots change root := by
  unfold rollbackTarget
  constructor
  · rintro ⟨target, htarget, hroot⟩
    cases hfind : snapshots.reverse.find? (·.appliedChangeId ≠ some change) with
    | some found =>
      rw [hfind, Option.some_or, Option.some.injEq] at htarget
      subst htarget
      obtain ⟨hother, after, before, hsplit, hafter⟩ := find?_eq_some_iff_append.1 hfind
      refine ⟨before.reverse, found, after.reverse, ?_, hroot, ?_, .inl (by simpa using hother)⟩
      · rw [← reverse_reverse snapshots, hsplit]
        simp
      · exact fun snapshot hmem => by simpa using hafter snapshot (mem_reverse.1 hmem)
    | none =>
      rw [hfind] at htarget
      obtain ⟨rest, rfl⟩ := head?_eq_some_iff.1 htarget
      refine ⟨[], target, rest, rfl, hroot, fun snapshot hmem => ?_, .inr rfl⟩
      simpa using find?_eq_none.1 hfind snapshot
        (mem_reverse.2 (.tail _ hmem))
  · rintro ⟨before, target, after, rfl, hroot, hafter, hwhich⟩
    refine ⟨target, ?_, hroot⟩
    have hnone : after.reverse.find? (·.appliedChangeId ≠ some change) = none :=
      find?_eq_none.2 fun snapshot hmem => by simpa using hafter snapshot (mem_reverse.1 hmem)
    rw [reverse_append, reverse_cons, append_assoc, find?_append, hnone]
    by_cases hmade : target.appliedChangeId = some change
    · obtain rfl := hwhich.resolve_left (not_not.2 hmade)
      simp [hmade]
    · simp [hmade]

variable {moment : Moment} {text : String} {id : Oid}

/-- A rollback to a snapshot saves one whenever the index is intact. -/
theorem step_rollbackTo (hid : svc.ids.ofHex text = some id)
    (hlist : store.listSnapshots moment = .ok snapshots) :
    ∃ graph root, step svc store (moment, .rollback (some text) none) =
      (Save.commit svc (rollbackSave svc moment snapshots (rollbackToLabel text) graph root
        store.head.name) store, .saved (rollbackSave svc moment snapshots (rollbackToLabel text)
        graph root store.head.name)) ∧
      ∀ target, store.findSnapshot moment id = some target → root = target.graphRootHash := by
  cases hfind : store.findSnapshot moment id with
  | none =>
    refine ⟨some .empty, svc.ids.object (.graph .empty), ?_, nofun⟩
    simp [step, planRollback, hlist, hid, hfind, settle, bind, Except.bind, pure, Except.pure]
  | some target =>
    refine ⟨none, target.graphRootHash, ?_, fun other hother => by rw [Option.some.inj hother]⟩
    simp [step, planRollback, hlist, hid, hfind, settle, bind, Except.bind, pure, Except.pure]

/-- If the index is not intact, a rollback fails at once. -/
theorem step_rollback_error {toSnapshot changeId : Option String}
    (hlist : ¬ ∃ snapshots, store.listSnapshots moment = .ok snapshots) :
    ∃ error, step svc store (moment, .rollback toSnapshot changeId) = (store, .failed error) := by
  cases herror : store.listSnapshots moment with
  | ok snapshots => exact absurd ⟨snapshots, herror⟩ hlist
  | error error => exact ⟨error, by simp [step, planRollback, herror, settle, bind, Except.bind]⟩

theorem rollsBackTo_iff (hinj : Function.Injective svc.ids.hash)
    (hid : svc.ids.ofHex text = some id) :
    RollsBackTo svc store moment text id ↔ CanRollBackTo svc store moment text id := by
  by_cases hlist : ∃ snapshots, store.listSnapshots moment = .ok snapshots
  · have hintact := (listSnapshots_isOk_iff moment).1 hlist
    obtain ⟨snapshots, hlist⟩ := hlist
    obtain ⟨graph, root, hstep, hroot⟩ := step_rollbackTo hid hlist
    have hrestores : ∀ target, store.findSnapshot moment id = some target →
        (Restores svc store (moment, .rollback (some text) none) target.graphRootHash ↔
          LabelKeeps svc store (rollbackToLabel text) target.graphRootHash) := by
      intro target htarget
      rw [restores_iff hinj hstep rfl]
      exact and_iff_right (hroot target htarget)
    constructor
    · intro back
      refine ⟨⟨fun _ => back.succeeds.1 ⟨_, by rw [hstep]⟩, fun _ => hintact⟩, ?_⟩
      exact fun target htarget => (hrestores target htarget).1 (back.restores target htarget)
    · intro can
      have hstored := can.intact.1 hintact
      exact ⟨⟨fun _ => hstored, fun _ => ⟨_, by rw [hstep]⟩⟩,
        fun target htarget => (hrestores target htarget).2 (can.label target htarget),
        fun hnot => absurd hstored hnot⟩
  · obtain ⟨error, hstep⟩ := @step_rollback_error _ _ svc store moment (some text) none hlist
    have hnot := mt (listSnapshots_isOk_iff moment).2 hlist
    constructor
    · intro back
      have hmissing : ¬ Stored store id := fun hstored => by
        obtain ⟨save, hsaved⟩ := back.succeeds.2 hstored
        rw [hstep] at hsaved
        cases hsaved
      refine ⟨⟨fun hintact => absurd hintact hnot, fun hstored => absurd hstored hmissing⟩, ?_⟩
      exact fun target htarget => absurd ((stored_iff moment).2 ⟨target, htarget⟩) hmissing
    · intro can
      have hmissing := mt can.intact.2 hnot
      refine ⟨⟨fun ⟨save, hsaved⟩ => ?_, fun hstored => absurd hstored hmissing⟩,
        fun target htarget => absurd ((stored_iff moment).2 ⟨target, htarget⟩) hmissing,
        fun _ => ?_⟩
      · rw [hstep] at hsaved
        cases hsaved
      · rw [hstep]
        exact .refl store

theorem restores_rollbackChange_iff (hinj : Function.Injective svc.ids.hash)
    (hid : svc.ids.ofHex text = some id) (root : Oid) :
    Restores svc store (moment, .rollback none (some text)) root ↔
      (∃ snapshots, store.listSnapshots moment = .ok snapshots ∧ LastWithout snapshots id root) ∧
        LabelKeeps svc store (rollbackChangeLabel text) root := by
  by_cases hlist : ∃ snapshots, store.listSnapshots moment = .ok snapshots
  · obtain ⟨snapshots, hlist⟩ := hlist
    simp only [hlist, Except.ok.injEq, exists_eq_left', ← rollbackTarget_root_iff]
    cases htarget : rollbackTarget snapshots id with
    | none =>
      have hstep : step svc store (moment, .rollback none (some text)) =
          (store, .failed (.notFound "no snapshots available for rollback")) := by
        simp [step, planRollback, hlist, hid, htarget, settle, bind, Except.bind, throw, throwThe,
          MonadExceptOf.throw]
      simp [Restores, hstep]
    | some target =>
      have hstep : step svc store (moment, .rollback none (some text)) =
          (Save.commit svc (rollbackSave svc moment snapshots (rollbackChangeLabel text) none
            target.graphRootHash store.head.name) store, .saved (rollbackSave svc moment snapshots
            (rollbackChangeLabel text) none target.graphRootHash store.head.name)) := by
        simp [step, planRollback, hlist, hid, htarget, settle, bind, Except.bind, pure, Except.pure]
      rw [restores_iff hinj hstep rfl]
      simp only [Option.some.injEq, exists_eq_left']
      rfl
  · obtain ⟨error, hstep⟩ := @step_rollback_error _ _ svc store moment none (some text) hlist
    constructor
    · rintro ⟨⟨save, hsaved⟩, -⟩
      rw [hstep] at hsaved
      cases hsaved
    · rintro ⟨⟨snapshots, hok, -⟩, -⟩
      exact absurd ⟨snapshots, hok⟩ hlist

/-- Rollback restores the requested state if and only if the snapshot
asked for is there, the index ends with the change's own snapshots on
top of the parent's root, and the label of the rollback stands for no
other root. -/
theorem rollback_restores_iff (hinj : Function.Injective svc.ids.hash)
    (hid : svc.ids.ofHex text = some id) :
    (RollsBackTo svc store moment text id ↔ CanRollBackTo svc store moment text id) ∧
    (RollsBackChange svc store moment text id ↔ CanRollBackChange svc store moment text id) := by
  refine ⟨rollsBackTo_iff hinj hid, forall_congr' fun head => forall_congr' fun parentId =>
    forall_congr' fun parent => ?_⟩
  simp [restores_rollbackChange_iff hinj hid]

/-! ## A project with two branches -/

namespace Sample

/-- The snapshot of a label on top of another one, at a time. -/
def labelled (label root : String) (parent : Option String) (change : Option Digest)
    (time : UInt64) : SnapshotEnvelope Digest :=
  ⟨.label label, .label root, parent.map .label, change, time, none, [], []⟩

/-- `main` has a change on top of `genesis`, and `other` a snapshot that
was saved in between or not. -/
def branched (between : Bool) : Store Digest :=
  let snapshots := [labelled "genesis" "empty" none none 1] ++
    (if between then [labelled "other" "elsewhere" (some "genesis") none 2] else []) ++
    [labelled "head" "changed" (some "genesis") (some (.label "change")) 3]
  { head := ⟨"main", by decide⟩
    refs := [("main", some (.label "head"))]
    index := snapshots.map fun snapshot => ⟨snapshot.id, snapshot.createdAt⟩
    objects := snapshots.map .snapshot
    reports := .empty }

end Sample

theorem rollback_restores_iff_branched :
    RollsBackTo (Sample.services [.label "genesis"]) (Sample.branched false) (Sample.instant 4)
      "label:genesis" (.label "genesis") ∧
    RollsBackChange (Sample.services [.label "change"]) (Sample.branched false) (Sample.instant 4)
      "label:change" (.label "change") := by
  have hgenesis : (Sample.branched false).findSnapshot (Sample.instant 4) (.label "genesis") =
      some (Sample.labelled "genesis" "empty" none none 1) := by decide
  constructor
  · refine (rollback_restores_iff Digest.ofContent_injective (by decide)).1.2
      ⟨iff_of_true (by decide) (by decide), fun target htarget => ?_⟩
    rw [← Option.some.inj (hgenesis.symm.trans htarget)]
    decide
  · refine (rollback_restores_iff Digest.ofContent_injective (by decide)).2.2
      fun head parentId parent hhead _ hparent hfind => ?_
    have hhead' : (Sample.branched false).headSnapshot (Sample.instant 4) =
      some (Sample.labelled "head" "changed" (some "genesis")
        (some (.label "change")) 3) := by decide
    rw [← Option.some.inj (hhead'.symm.trans hhead)] at hparent
    rw [← Option.some.inj hparent] at hfind
    rw [← Option.some.inj (hgenesis.symm.trans hfind)]
    refine ⟨⟨[_, _], rfl, [], _, [_], rfl, rfl, ?_, .inr rfl⟩, by decide⟩
    decide

/-- An id that nobody saved gives an empty graph, and the rollback of
the head's change goes to the other branch. -/
theorem rollback_goes_elsewhere :
    ((step (Sample.services [.label "lost"]) (Sample.branched false)
      (Sample.instant 4, .rollback (some "label:lost") none)).1.headSnapshot (Sample.instant 5)).map
        (·.graphRootHash) = some (.graph .empty) ∧
    ((step (Sample.services [.label "change"]) (Sample.branched true)
      (Sample.instant 4, .rollback none (some "label:change"))).1.headSnapshot
        (Sample.instant 5)).map
        (·.graphRootHash) = some (.label "elsewhere") := by
  decide

end Ail.Cli
