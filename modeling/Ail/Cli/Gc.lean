import Ail.Cli.Steps
import Ail.Lib.Run

/-!
# Garbage collection

`gc` keeps the snapshots on the branches, that is those a branch tip
leads to along parent links, and what those link to: graph, changeset
and report. `mem_reachableObjects` says that the marking walk computes
exactly this. Everything else is deleted, and that includes what the
documentation promises to keep: log entries (nothing links to them),
drafts, and snapshots that no branch leads to any more.

The documented rule therefore holds of a project exactly when there is
nothing of the kind in it. That a link to a graph, say, is never the hash
of a snapshot is an invariant of every run (`LinksTyped`).
-/

namespace Ail.Cli

open Ail.Core Change Verify Storage Lib List Store

variable {Oid : Type} [DecidableEq Oid] (svc : Services Oid) {object : StoredObject Oid}
  {command : Command} {target : Store Oid} {save : Save Oid}

/-! ## What is kept and what should be -/

/-- The snapshots a branch tip leads to. -/
inductive OnBranch (moment : Moment) (store : Store Oid) : SnapshotEnvelope Oid → Prop
  | tip {branch : String} {id : Oid} {snapshot : SnapshotEnvelope Oid}
      (href : (branch, some id) ∈ store.refs)
      (hfind : store.findSnapshot moment id = some snapshot) : OnBranch moment store snapshot
  | parent {child parent : SnapshotEnvelope Oid} {id : Oid} (older : OnBranch moment store child)
      (hparent : child.parentId = some id)
      (hfind : store.findSnapshot moment id = some parent) : OnBranch moment store parent

/-- The documented rule, for a collection at the moment `during`: the
snapshots listed before are listed after, in whatever order the
directory is read then, and the graph of each is still found; every
changeset still loads; log entries and refs are still there. -/
structure KeepsHistory (during : Moment) (store : Store Oid) : Prop where
  lists : ∀ listed, store.listSnapshots during = .ok listed → ∀ after,
    (gc svc during store).listSnapshots after = .ok listed
  graphs : ∀ listed, store.listSnapshots during = .ok listed →
    ∀ snapshot ∈ listed, ∀ graph, store.loadGraph svc.ids snapshot.graphRootHash =
      .ok (some graph) →
      (gc svc during store).loadGraph svc.ids snapshot.graphRootHash = .ok (some graph)
  changesets : ∀ changeId canonical, store.loadChangesetById svc.ids changeId =
    .ok (some canonical) →
    (gc svc during store).loadChangesetById svc.ids changeId = .ok (some canonical)
  logEntries : ∀ entry, .logEntry entry ∈ store.objects →
    .logEntry entry ∈ (gc svc during store).objects
  refs : (gc svc during store).refs = store.refs

/-- Every listed snapshot is on a branch, every stored changeset was
applied by one that is, and there are no log entries. -/
structure AllOnBranches (during : Moment) (store : Store Oid) : Prop where
  snapshots : ∀ listed, store.listSnapshots during = .ok listed →
    ∀ snapshot ∈ listed, OnBranch during store snapshot
  changesets : ∀ changeId canonical, store.loadChangesetById svc.ids changeId =
    .ok (some canonical) →
    ∃ snapshot, OnBranch during store snapshot ∧
      snapshot.appliedChangeId = some (svc.ids.object (.changeset canonical))
  logEntries : ∀ entry, .logEntry entry ∉ store.objects

/-- Snapshots link to objects of the kind the link is for. -/
def LinksTyped (store : Store Oid) : Prop :=
  ∀ snapshot ∈ store.snapshots,
    (∃ graph, snapshot.graphRootHash = svc.ids.object (.graph graph)) ∧
    (∀ id, snapshot.appliedChangeId = some id →
      ∃ changeset, id = svc.ids.object (.changeset changeset)) ∧
    (∀ hash, snapshot.verificationReportHash = some hash →
      ∃ report profile, hash = svc.ids.object (.report report profile))

variable {svc} {moment : Moment} {store : Store Oid}

variable {snapshot : SnapshotEnvelope Oid} {reachable : List Oid}

theorem OnBranch.found (onBranch : OnBranch moment store snapshot) :
    store.findSnapshot moment snapshot.id = some snapshot := by
  cases onBranch with
  | tip _ hfind | parent _ _ hfind => rw [(findSnapshot_eq_some hfind).2, hfind]

theorem OnBranch.mem (onBranch : OnBranch moment store snapshot) : snapshot ∈ store.snapshots :=
  (findSnapshot_eq_some onBranch.found).1

omit [DecidableEq Oid] in
/-- Under the invariant a link never names a snapshot or a log entry, and
names a changeset only as the one that was applied. -/
theorem LinksTyped.mem_links (hinj : Function.Injective svc.ids.hash) (typed : LinksTyped svc store)
    (hmem : snapshot ∈ store.snapshots) (hlink : svc.ids.object object ∈ snapshotLinks snapshot) :
    (∃ graph, object = .graph graph) ∨
      (∃ changeset, object = .changeset changeset ∧
        snapshot.appliedChangeId = some (svc.ids.object object)) ∨
      ∃ report profile, object = .report report profile := by
  obtain ⟨⟨graph, hroot⟩, happlied, hreport⟩ := typed snapshot hmem
  simp only [snapshotLinks, cons_append, mem_cons, mem_append, Option.mem_toList] at hlink
  rcases hlink with heq | heq | heq
  · exact .inl ⟨graph, svc.ids.object_injective hinj (heq.trans hroot)⟩
  · obtain ⟨changeset, hid⟩ := happlied _ heq
    exact .inr (.inl ⟨changeset, svc.ids.object_injective hinj hid, heq⟩)
  · obtain ⟨report, profile, hhash⟩ := hreport _ heq
    exact .inr (.inr ⟨report, profile, svc.ids.object_injective hinj hhash⟩)

/-! ## The marking walk -/

variable (svc moment store) in
/-- An id that belongs to a snapshot on a branch. -/
def Marked (id : Oid) : Prop :=
  ∃ snapshot, OnBranch moment store snapshot ∧
    (id = svc.ids.object (.snapshot snapshot) ∨ id ∈ snapshotLinks snapshot)

variable {fuel : Nat} {next : Option Oid}

/-- Only what hangs on a branch is marked. -/
theorem markChain_sound (hreachable : ∀ id ∈ reachable, Marked svc moment store id)
    (hnext : ∀ id snapshot, next = some id → store.findSnapshot moment id = some snapshot →
      OnBranch moment store snapshot) :
    ∀ id ∈ markChain svc moment store fuel reachable next, Marked svc moment store id := by
  induction fuel generalizing reachable next with
  | zero => exact hreachable
  | succ fuel ih =>
    cases next with
    | none => exact hreachable
    | some next =>
      rw [markChain]
      split
      · exact hreachable
      · rename_i snapshot hfind
        have onBranch := hnext next snapshot rfl hfind
        dsimp only
        split
        · exact hreachable
        · refine ih (fun id hmem => ?_) fun id parent hparent hfind =>
            .parent onBranch hparent hfind
          rcases mem_append.1 hmem with hlink | hmem
          · exact ⟨snapshot, onBranch, .inr hlink⟩
          · rcases mem_cons.1 hmem with rfl | hold
            · exact ⟨snapshot, onBranch, .inl rfl⟩
            · exact hreachable id hold

variable (svc moment store) in
/-- A set of marks that is closed under links and parents, but for the
parent the walk goes to next. -/
def ClosedBut (next : Option Oid) (reachable : List Oid) : Prop :=
  ∀ snapshot ∈ store.snapshots, svc.ids.object (.snapshot snapshot) ∈ reachable →
    (∀ id ∈ snapshotLinks snapshot, id ∈ reachable) ∧
    ∀ id parent, snapshot.parentId = some id → store.findSnapshot moment id = some parent →
      next = some id ∨ svc.ids.object (.snapshot parent) ∈ reachable

variable (svc moment store) in
/-- The snapshot that would be next is marked. -/
def NextMarked (next : Option Oid) (reachable : List Oid) : Prop :=
  ∀ id snapshot, next = some id → store.findSnapshot moment id = some snapshot →
    svc.ids.object (.snapshot snapshot) ∈ reachable

/-- Where the walk stops. -/
theorem ClosedBut.stop (closed : ClosedBut svc moment store next reachable)
    (hmarked : NextMarked svc moment store next reachable) :
    ClosedBut svc moment store none reachable := by
  intro snapshot hmem hreach
  obtain ⟨hlinks, hparents⟩ := closed snapshot hmem hreach
  refine ⟨hlinks, fun id parent hparent hfind => .inr ?_⟩
  rcases hparents id parent hparent hfind with hnext | hin
  · exact hmarked id parent hnext hfind
  · exact hin

theorem mark_refs_sound (refs : List (String × Option Oid))
    (hreachable : ∀ id ∈ reachable, Marked svc moment store id)
    (hrefs : ∀ ref ∈ refs, ref ∈ store.refs) :
    ∀ id ∈ refs.foldl (fun reachable ref => markChain svc moment store fuel reachable ref.2)
      reachable, Marked svc moment store id := by
  induction refs generalizing reachable with
  | nil => exact hreachable
  | cons ref refs ih =>
    obtain ⟨branch, next⟩ := ref
    refine ih (markChain_sound hreachable fun id snapshot hnext hfind => ?_)
      fun other hmem => hrefs other (.tail _ hmem)
    obtain rfl : next = some id := hnext
    exact .tip (hrefs _ (.head _)) hfind

section Kept

variable (hinj : Function.Injective svc.ids.hash) (typed : LinksTyped svc store)
include hinj typed

/-- One more snapshot marked, with its links: now its parent is next. -/
theorem ClosedBut.mark {next : Oid} {marked : SnapshotEnvelope Oid}
    (closed : ClosedBut svc moment store (some next) reachable)
    (hfind : store.findSnapshot moment next = some marked) :
    ClosedBut svc moment store marked.parentId
      (snapshotLinks marked ++ svc.ids.object (.snapshot marked) :: reachable) := by
  intro snapshot hmem hreach
  have hstored := (findSnapshot_eq_some hfind).1
  rcases mem_append.1 hreach with hlink | hreach
  · rcases typed.mem_links hinj hstored hlink with ⟨_, heq⟩ | ⟨_, heq, -⟩ | ⟨_, _, heq⟩ <;>
      cases heq
  · rcases mem_cons.1 hreach with hself | hold
    · obtain rfl := StoredObject.snapshot.inj (svc.ids.object_injective hinj hself)
      exact ⟨fun id hid => mem_append_left _ hid, fun id parent hparent _ => .inl hparent⟩
    · obtain ⟨hlinks, hparents⟩ := closed snapshot hmem hold
      refine ⟨fun id hid => mem_append_right _ (.tail _ (hlinks id hid)),
        fun id parent hparent hfound => .inr (mem_append_right _ ?_)⟩
      rcases hparents id parent hparent hfound with hnext | hin
      · cases hnext
        cases hfind.symm.trans hfound
        exact .head _
      · exact .tail _ hin

/-- With fuel for every snapshot not marked yet, the walk ends with
closed marks, and the snapshot it started from is marked. -/
theorem markChain_closed
    (hfuel : ((store.snapshots.map fun snapshot => svc.ids.object (.snapshot snapshot)).toFinset \
      reachable.toFinset).card ≤ fuel) (closed : ClosedBut svc moment store next reachable) :
    ClosedBut svc moment store none (markChain svc moment store fuel reachable next) ∧
      reachable ⊆ markChain svc moment store fuel reachable next ∧
      NextMarked svc moment store next (markChain svc moment store fuel reachable next) := by
  induction fuel generalizing reachable next with
  | zero =>
    have hall : NextMarked svc moment store next reachable := by
      intro id snapshot _ hfind
      have hempty := Finset.card_eq_zero.1 (Nat.le_zero.1 hfuel)
      have hmem := (findSnapshot_eq_some hfind).1
      rw [Finset.sdiff_eq_empty_iff_subset] at hempty
      exact mem_toFinset.1 (hempty (mem_toFinset.2 (mem_map.2 ⟨snapshot, hmem, rfl⟩)))
    exact ⟨closed.stop hall, List.Subset.refl _, hall⟩
  | succ fuel ih =>
    cases next with
    | none => exact ⟨closed, List.Subset.refl _, nofun⟩
    | some next =>
      rw [markChain]
      cases hfind : store.findSnapshot moment next with
      | none =>
        have hall : NextMarked svc moment store (some next) reachable := by
          rintro id snapshot heq hfound
          rw [← Option.some.inj heq, hfind] at hfound
          cases hfound
        exact ⟨closed.stop hall, List.Subset.refl _, hall⟩
      | some snapshot =>
        dsimp only
        split
        · rename_i hmarked
          have hall : NextMarked svc moment store (some next) reachable := by
            rintro id found heq hfound
            rw [← Option.some.inj heq, hfind] at hfound
            exact Option.some.inj hfound ▸ hmarked
          exact ⟨closed.stop hall, List.Subset.refl _, hall⟩
        · rename_i hnew
          have hmem := (findSnapshot_eq_some hfind).1
          have hsub : reachable ⊆
              snapshotLinks snapshot ++ svc.ids.object (.snapshot snapshot) :: reachable :=
            fun id hid => mem_append_right _ (.tail _ hid)
          have hself : svc.ids.object (.snapshot snapshot) ∈
              snapshotLinks snapshot ++ svc.ids.object (.snapshot snapshot) :: reachable :=
            mem_append_right _ (.head _)
          have huniv : svc.ids.object (.snapshot snapshot) ∈ (store.snapshots.map fun snapshot =>
              svc.ids.object (.snapshot snapshot)).toFinset :=
            mem_toFinset.2 (mem_map.2 ⟨snapshot, hmem, rfl⟩)
          have hless := card_sdiff_lt huniv hnew hself hsub
          obtain ⟨hclosed, hgrows, -⟩ := ih (by omega) (closed.mark hinj typed hfind)
          refine ⟨hclosed, List.Subset.trans hsub hgrows, fun id found heq hfound => ?_⟩
          rw [← Option.some.inj heq, hfind] at hfound
          exact Option.some.inj hfound ▸ hgrows hself

/-- The walks from all refs, one after the other. -/
theorem mark_refs_closed (hfuel : store.objects.length ≤ fuel) (refs : List (String × Option Oid))
    (closed : ClosedBut svc moment store none reachable) :
    let marks := refs.foldl (fun reachable ref => markChain svc moment store fuel reachable ref.2)
      reachable
    ClosedBut svc moment store none marks ∧ reachable ⊆ marks ∧
      ∀ branch id snapshot, (branch, some id) ∈ refs →
        store.findSnapshot moment id = some snapshot →
        svc.ids.object (.snapshot snapshot) ∈ marks := by
  induction refs generalizing reachable with
  | nil => exact ⟨closed, List.Subset.refl _, nofun⟩
  | cons ref refs ih =>
    have hcount : ∀ marks : List Oid, ((store.snapshots.map fun snapshot =>
        svc.ids.object (.snapshot snapshot)).toFinset \ marks.toFinset).card ≤ fuel := by
      intro marks
      calc _ ≤ _ := Finset.card_le_card Finset.sdiff_subset
        _ ≤ _ := toFinset_card_le _
        _ ≤ store.objects.length := by
          rw [length_map]
          exact length_filterMap_le asSnapshot store.objects
        _ ≤ fuel := hfuel
    have closed' : ClosedBut svc moment store ref.2 reachable := by
      intro snapshot hmem hreach
      obtain ⟨hlinks, hparents⟩ := closed snapshot hmem hreach
      exact ⟨hlinks, fun id parent hparent hfind =>
        .inr ((hparents id parent hparent hfind).resolve_left nofun)⟩
    obtain ⟨hchain, hgrows, htip⟩ := markChain_closed hinj typed (hcount reachable) closed'
    obtain ⟨hclosed, hgrows', htips⟩ := ih hchain
    refine ⟨hclosed, List.Subset.trans hgrows hgrows', fun branch id snapshot hmem hfind => ?_⟩
    rcases mem_cons.1 hmem with rfl | hmem
    · exact hgrows' (htip id snapshot rfl hfind)
    · exact htips branch id snapshot hmem hfind

/-- The walk marks exactly what belongs to the snapshots on branches. -/
theorem mem_reachableObjects (id : Oid) :
    id ∈ reachableObjects svc moment store ↔ Marked svc moment store id := by
  constructor
  · exact mark_refs_sound _ nofun (fun ref hmem => moment.mem_order.1 hmem) id
  · have hstart : ClosedBut svc moment store none [] := fun _ _ hmem => nomatch hmem
    obtain ⟨hclosed, -, htips⟩ := mark_refs_closed hinj typed (Nat.le_succ store.objects.length)
      (moment.order store.refs) hstart
    have hmarked : ∀ snapshot, OnBranch moment store snapshot →
        svc.ids.object (.snapshot snapshot) ∈ reachableObjects svc moment store := by
      intro snapshot onBranch
      induction onBranch with
      | tip href hfind => exact htips _ _ _ (moment.mem_order.2 href) hfind
      | parent older hparent hfind ih =>
        exact ((hclosed _ older.mem ih).2 _ _ hparent hfind).resolve_left nofun
    rintro ⟨snapshot, onBranch, rfl | hlink⟩
    · exact hmarked snapshot onBranch
    · exact (hclosed snapshot onBranch.mem (hmarked snapshot onBranch)).1 id hlink

/-! ## What is left after a collection -/

omit hinj typed in
/-- The collection keeps exactly the reachable objects. -/
theorem mem_gc :
    object ∈ (gc svc moment store).objects ↔
      object ∈ store.objects ∧ svc.ids.object object ∈ reachableObjects svc moment store := by
  simp [gc]

omit hinj typed in
theorem get_gc {id : Oid} (hmem : id ∈ reachableObjects svc moment store) :
    (gc svc moment store).get svc.ids id = store.get svc.ids id := by
  rw [Store.get, gc, find?_filter]
  refine congrArg (fun p => store.objects.find? p) (funext fun object => ?_)
  by_cases heq : svc.ids.object object = id
  · simp [heq, hmem]
  · simp [heq]

/-- The snapshots left are those on branches. -/
theorem mem_snapshots_gc :
    snapshot ∈ (gc svc moment store).snapshots ↔ OnBranch moment store snapshot := by
  rw [mem_snapshots, mem_gc, mem_reachableObjects hinj typed]
  constructor
  · rintro ⟨-, other, onBranch, heq | hlink⟩
    · obtain rfl := StoredObject.snapshot.inj (svc.ids.object_injective hinj heq)
      exact onBranch
    · rcases typed.mem_links hinj onBranch.mem hlink with ⟨_, heq⟩ | ⟨_, heq, -⟩ | ⟨_, _, heq⟩ <;>
        cases heq
  · exact fun onBranch => ⟨mem_snapshots.1 onBranch.mem, snapshot, onBranch, .inl rfl⟩

/-- The changesets left are those that snapshots on branches applied. -/
theorem mem_changesets_gc {changeset : CanonicalChangeSet} :
    .changeset changeset ∈ (gc svc moment store).objects ↔
      .changeset changeset ∈ store.objects ∧ ∃ snapshot, OnBranch moment store snapshot ∧
        snapshot.appliedChangeId = some (svc.ids.object (.changeset changeset)) := by
  rw [mem_gc, mem_reachableObjects hinj typed]
  refine and_congr_right fun _ => ⟨?_, ?_⟩
  · rintro ⟨snapshot, onBranch, heq | hlink⟩
    · cases svc.ids.object_injective hinj heq
    · rcases typed.mem_links hinj onBranch.mem hlink with ⟨_, heq⟩ | ⟨_, -, happlied⟩ | ⟨_, _, heq⟩
      · cases heq
      · exact ⟨snapshot, onBranch, happlied⟩
      · cases heq
  · rintro ⟨snapshot, onBranch, happlied⟩
    exact ⟨snapshot, onBranch, .inr (by simp [snapshotLinks, happlied])⟩

/-- No log entry is left. -/
theorem logEntry_notMem_gc (entry : ChangeSetLogEntry Oid) :
    .logEntry entry ∉ (gc svc moment store).objects := by
  rw [mem_gc, mem_reachableObjects hinj typed]
  rintro ⟨-, snapshot, onBranch, heq | hlink⟩
  · cases svc.ids.object_injective hinj heq
  · rcases typed.mem_links hinj onBranch.mem hlink with ⟨_, heq⟩ | ⟨_, heq, -⟩ | ⟨_, _, heq⟩ <;>
      cases heq

theorem link_mem_reachable (onBranch : OnBranch moment store snapshot) {id : Oid}
    (hlink : id ∈ snapshotLinks snapshot) : id ∈ reachableObjects svc moment store :=
  (mem_reachableObjects hinj typed id).2 ⟨snapshot, onBranch, .inr hlink⟩

/-- After a collection an id names one snapshot, so it does not matter
any more how the directory is listed. -/
theorem OnBranch.found_gc (onBranch : OnBranch moment store snapshot) (after : Moment) :
    (gc svc moment store).findSnapshot after snapshot.id = some snapshot := by
  refine findSnapshot_of_unique ((mem_snapshots_gc hinj typed).2 onBranch) fun other hmem hid => ?_
  have hother := ((mem_snapshots_gc hinj typed).1 hmem).found
  rw [hid, onBranch.found] at hother
  exact (Option.some.inj hother).symm

theorem keepsHistory_iff : KeepsHistory svc moment store ↔ AllOnBranches svc moment store := by
  constructor
  · intro keeps
    refine ⟨fun listed hlisted snapshot hmem => ?_, fun changeId canonical hload => ?_,
      fun entry hmem => logEntry_notMem_gc hinj typed entry (keeps.logEntries entry hmem)⟩
    · obtain ⟨entry, -, hfind⟩ :=
        exists_of_mem_listSnapshots (keeps.lists listed hlisted moment) hmem
      exact (mem_snapshots_gc hinj typed).1 (findSnapshot_eq_some hfind).1
    · obtain ⟨id, -, hget⟩ :=
        loadChangesetById_eq_ok_iff.1 (keeps.changesets changeId canonical hload)
      exact ((mem_changesets_gc hinj typed).1 (get_eq_some hget).1).2
  · intro onBranches
    refine ⟨fun listed hlisted after => ?_, fun listed hlisted snapshot hmem graph hgraph => ?_,
      fun changeId canonical hload => ?_, fun entry hmem =>
        absurd hmem (onBranches.logEntries entry),
      rfl⟩
    · have hkept := onBranches.snapshots listed hlisted
      rw [listSnapshots_eq_ok_iff] at hlisted ⊢
      have hboth := (forall₂_and_left _ _).2 ⟨hkept, hlisted.flip⟩
      refine hboth.flip.imp fun entry snapshot hentry => ?_
      obtain ⟨onBranch, hfind⟩ := hentry
      rw [← (findSnapshot_eq_some hfind).2]
      exact onBranch.found_gc hinj typed after
    · have hlink : snapshot.graphRootHash ∈ snapshotLinks snapshot := .head _
      rw [loadGraph, get_gc (link_mem_reachable hinj typed
        (onBranches.snapshots listed hlisted snapshot hmem) hlink)]
      exact hgraph
    · obtain ⟨snapshot, onBranch, happlied⟩ := onBranches.changesets changeId canonical hload
      have hlink : svc.ids.object (.changeset canonical) ∈ snapshotLinks snapshot := by
        simp [snapshotLinks, happlied]
      obtain ⟨id, hid, hget⟩ := loadChangesetById_eq_ok_iff.1 hload
      rw [(get_eq_some hget).2] at hlink
      refine loadChangesetById_eq_ok_iff.2 ⟨id, hid, ?_⟩
      rw [get_gc (link_mem_reachable hinj typed onBranch hlink), hget]

end Kept

/-! ## Every run -/

/-- What a command saves links to objects of the right kind. A rollback
takes the graph of a snapshot that does already. -/
theorem Saved.typed (saved : Saved svc moment store command target save)
    (typed : LinksTyped svc store) :
    (∃ graph, save.envelope.graphRootHash = svc.ids.object (.graph graph)) ∧
    (∀ id, save.envelope.appliedChangeId = some id →
      ∃ changeset, id = svc.ids.object (.changeset changeset)) ∧
    (∀ hash, save.envelope.verificationReportHash = some hash →
      ∃ report profile, hash = svc.ids.object (.report report profile)) := by
  cases saved with
  | init head hlist => exact ⟨⟨_, rfl⟩, nofun, nofun⟩
  | change hlist happly htarget =>
    exact ⟨⟨_, rfl⟩, fun id hid => ⟨_, (Option.some.inj hid).symm⟩, nofun⟩
  | apply hid hcurrent hgate hbase hload happly =>
    refine ⟨⟨_, rfl⟩, fun id heq => ?_, fun hash heq => ?_⟩
    · rw [loadChangesetById_eq_some hload, Option.some.injEq] at hid
      exact ⟨_, (Option.some.inj heq).symm.trans hid.symm⟩
    · obtain ⟨-, -, -, report, profile, hreport⟩ := verificationGate_eq_ok hgate
      exact ⟨report, profile, (Option.some.inj heq).symm.trans hreport⟩
  | rollbackTo hlist hid htarget =>
    exact ⟨(typed _ (findSnapshot_eq_some htarget).1).1, nofun, nofun⟩
  | rollbackToEmpty hlist hid htarget => exact ⟨⟨_, rfl⟩, nofun, nofun⟩
  | @rollbackChange changeId changeOid snapshots target hlist hid htarget =>
    have hmem : target ∈ snapshots := by
      rcases Option.or_eq_some_iff.1 htarget with hfound | ⟨-, hfirst⟩
      · exact mem_reverse.1 (mem_of_find?_eq_some hfound)
      · exact mem_of_mem_head? hfirst
    obtain ⟨entry, -, hfind⟩ := exists_of_mem_listSnapshots hlist hmem
    exact ⟨(typed _ (findSnapshot_eq_some hfind).1).1, nofun, nofun⟩
  | rebase hgraph => exact ⟨⟨_, rfl⟩, nofun, nofun⟩
  | merge htarget hgraph => exact ⟨⟨_, rfl⟩, nofun, nofun⟩

omit [DecidableEq Oid] in
theorem LinksTyped.subset (typed : LinksTyped svc store) {after : Store Oid}
    (hsub : after.snapshots ⊆ store.snapshots) : LinksTyped svc after :=
  fun snapshot hmem => typed snapshot (hsub hmem)

omit [DecidableEq Oid] in
theorem initFileLayout_snapshots (head : BranchName) :
    (initFileLayout head store).snapshots = store.snapshots := by
  unfold initFileLayout
  dsimp only
  split <;> rfl

theorem Saved.target_snapshots (saved : Saved svc moment store command target save) :
    target.snapshots = store.snapshots := by
  cases saved with
  | init head hlist => exact initFileLayout_snapshots head
  | change hlist happly htarget => exact (untouched_recordDraft _ store).snapshots
  | _ => rfl

/-- One command keeps links pointing to their kind. -/
theorem linksTyped_step (hinj : Function.Injective svc.ids.hash) (typed : LinksTyped svc store)
    (input : Moment × Command) : LinksTyped svc (step svc store input).1 := by
  by_cases hsaves : ∃ save, (step svc store input).2 = .saved save
  · obtain ⟨save, hsaved⟩ := hsaves
    obtain ⟨target, saved, hcommit⟩ := step_saved hsaved
    intro snapshot hmem
    rw [hcommit, Save.mem_snapshots_commit hinj, saved.target_snapshots] at hmem
    rcases hmem with hold | rfl
    · exact typed snapshot hold
    · exact saved.typed typed
  · rcases step_unsaved (not_exists.1 hsaves) with hgc | ⟨head, -, hlayout⟩ | same
    · obtain ⟨moment, command⟩ := input
      obtain rfl : command = .gc := hgc
      exact typed.subset (filterMap_subset _ (filter_subset_self _))
    · exact typed.subset (by rw [hlayout, initFileLayout_snapshots]; exact List.Subset.refl _)
    · exact typed.subset (by rw [same.snapshots]; exact List.Subset.refl _)

theorem linksTyped_run (hinj : Function.Injective svc.ids.hash) (inputs : List (Moment × Command)) :
    LinksTyped svc (run (step svc) .blank inputs).1 := by
  have hblank : LinksTyped svc .blank := by
    intro snapshot hmem
    simp [blank] at hmem
  exact @run_induction _ _ _ (step svc) .blank (fun store _ => LinksTyped svc store) hblank
    (fun store _ input typed => linksTyped_step hinj typed input) inputs

/-- Whatever the commands before it, a collection keeps the history
exactly when all of it is on the branches. -/
theorem gc_keeps_history_iff (hinj : Function.Injective svc.ids.hash)
    (inputs : List (Moment × Command)) (during : Moment) :
    KeepsHistory svc during (run (step svc) .blank inputs).1 ↔
      AllOnBranches svc during (run (step svc) .blank inputs).1 :=
  keepsHistory_iff hinj (linksTyped_run hinj inputs)

/-- A rollback on top of the first snapshot. -/
def Sample.rolledBack : List (Moment × Command) :=
  [(instant 1, .init "main"), (instant 2, .rollback (some "label:lost") none)]

/-- A snapshot and its parent are kept. -/
theorem gc_keeps_history_after_rollback :
    let svc := Sample.services [.label "lost"]
    KeepsHistory svc (Sample.instant 3) (run (step svc) .blank Sample.rolledBack).1 := by
  refine (gc_keeps_history_iff Digest.ofContent_injective _ _).2 ⟨?_, ?_, ?_⟩
  · intro listed hlisted snapshot hmem
    cases hlisted
    have htip := @OnBranch.tip _ _ (Sample.instant 3)
      (run (step (Sample.services [.label "lost"])) .blank Sample.rolledBack).1 "main" _ _
      (.head _) rfl
    rcases mem_pair.1 hmem with rfl | rfl
    · exact .parent htip rfl rfl
    · exact htip
  · intro changeId canonical hload
    unfold loadChangesetById at hload
    split at hload
    · cases hload
    · rename_i id hid
      have hknown : [Digest.label "lost"].find? (Sample.toHex · = changeId) = some id := hid
      obtain rfl := mem_singleton.1 (mem_of_find?_eq_some hknown)
      cases hload
  · intro entry hmem
    have hkinds :
      ((run (step (Sample.services [.label "lost"])) .blank Sample.rolledBack).1.objects.all
        fun | .logEntry _ => false | _ => true) = true := by decide
    exact absurd (all_eq_true.1 hkinds _ hmem) (by simp)

/-- The first draft of a project: its log entry is deleted, and the
changeset with it. -/
theorem gc_deletes_draft :
    ¬ KeepsHistory (Sample.services [.changeset Sample.draft]) (Sample.instant 3)
      (run (step (Sample.services [.changeset Sample.draft])) .blank
        [(Sample.instant 1, .init "main"),
          (Sample.instant 2, .change Sample.draft false none)]).1 := by
  intro keeps
  have hload := keeps.changesets "change:draft" Sample.draft rfl
  cases hload

/-- Whatever the commands before it, a collection leaves nothing to
another one, in whatever order the directories are read then. -/
theorem gc_idempotent (hinj : Function.Injective svc.ids.hash) (inputs : List (Moment × Command))
    (during after : Moment) :
    let store := (run (step svc) .blank (inputs ++ [(during, .gc)])).1
    gc svc after store = store := by
  have typed := @linksTyped_run _ _ svc hinj inputs
  have typed' := linksTyped_step hinj typed (during, .gc)
  rw [run_concat]
  show gc svc after (gc svc during (run (step svc) .blank inputs).1) = gc svc during _
  generalize (run (step svc) .blank inputs).1 = store at *
  have hfound : ∀ {id snapshot}, OnBranch during store snapshot →
      store.findSnapshot during id = some snapshot →
      (gc svc during store).findSnapshot after id = some snapshot := fun onBranch hfind =>
    (findSnapshot_eq_some hfind).2 ▸ onBranch.found_gc hinj typed after
  have hkept : ∀ snapshot, OnBranch during store snapshot →
      OnBranch after (gc svc during store) snapshot := by
    intro snapshot onBranch
    induction onBranch with
    | tip href hfind => exact .tip href (hfound (.tip href hfind) hfind)
    | parent older hparent hfind ih =>
      exact .parent ih hparent (hfound (.parent older hparent hfind) hfind)
  rw [gc, filter_eq_self.2 fun object hmem => ?_]
  obtain ⟨snapshot, onBranch, hmarks⟩ := (mem_reachableObjects hinj typed _).1 (mem_gc.1 hmem).2
  exact decide_eq_true ((mem_reachableObjects hinj typed' _).2
    ⟨snapshot, hkept snapshot onBranch, hmarks⟩)

theorem gc_idempotent_after_rollback :
    let svc := Sample.services [.label "lost"]
    let store := (run (step svc) .blank (Sample.rolledBack ++ [(Sample.instant 3, .gc)])).1
    gc svc (Sample.instant 4) store = store :=
  gc_idempotent Digest.ofContent_injective _ _ _

end Ail.Cli
